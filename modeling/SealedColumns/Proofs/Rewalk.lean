import SealedColumns.Proofs.Numbering

/-!
A walk whose visitor undoes, value by value, what the visitor of another walk did gives back the
tree. So a statement comes back from numbering and restoring its placeholders.
-/
namespace SealedColumns.Sql

variable {ν μ σ τ : Type} {v : Visitor ν μ σ} {w : Visitor μ ν τ}

def Visitor.Undoes (w : Visitor μ ν τ) (v : Visitor ν μ σ) : Prop :=
  ∀ x s r, (w.value (v.value x s).1 r).1 = x

mutual

theorem Expr.walk_walk (undoes : w.Undoes v) : ∀ (e : Expr ν) (s : σ) (r : τ),
    ((e.walk v s).1.walk w r).1 = e
  | .column _ _, s, r => rfl
  | .value x, s, r => congrArg Expr.value (undoes x s r)
  | .nested e, s, r | .unary _ e, s, r | .isNull _ e, s, r | .argument _ _ e, s, r => by
    simp only [Expr.walk, e.walk_walk undoes]
  | .binary left _ right, s, r => by
    simp only [Expr.walk, left.walk_walk undoes, right.walk_walk undoes]
  | .pattern _ _ e p _, s, r => by
    simp only [Expr.walk, e.walk_walk undoes, p.walk_walk undoes]
  | .inList _ e items, s, r => by
    simp only [Expr.walk, e.walk_walk undoes, walkExprs_walkExprs undoes items]
  | .inQuery _ e q, s, r => by
    simp only [Expr.walk, e.walk_walk undoes, q.walk_walk undoes]
  | .call _ _ args clauses tail, s, r => by
    simp only [Expr.walk, walkExprs_walkExprs undoes args, walkExprs_walkExprs undoes clauses,
      walkExprs_walkExprs undoes tail]
  | .star _, s, r => rfl
  | .existence _ q, s, r | .subquery q, s, r => by
    simp only [Expr.walk, q.walk_walk undoes]
  | .framed _ es, s, r => by
    simp only [Expr.walk, walkExprs_walkExprs undoes es]

theorem walkExprs_walkExprs (undoes : w.Undoes v) : ∀ (es : List (Expr ν)) (s : σ) (r : τ),
    (walkExprs w (walkExprs v es s).1 r).1 = es
  | [], s, r => rfl
  | e :: es, s, r => by
    simp only [walkExprs, e.walk_walk undoes, walkExprs_walkExprs undoes es]

theorem walkOption_walkOption (undoes : w.Undoes v) : ∀ (e : Option (Expr ν)) (s : σ) (r : τ),
    (walkOption w (walkOption v e s).1 r).1 = e
  | none, s, r => rfl
  | some e, s, r => by
    simp only [walkOption, e.walk_walk undoes]

theorem walkRows_walkRows (undoes : w.Undoes v) : ∀ (rows : List (List (Expr ν))) (s : σ) (r : τ),
    (walkRows w (walkRows v rows s).1 r).1 = rows
  | [], s, r => rfl
  | row :: rows, s, r => by
    simp only [walkRows, walkExprs_walkExprs undoes row, walkRows_walkRows undoes rows]

theorem SelectItem.walk_walk (undoes : w.Undoes v) : ∀ (item : SelectItem ν) (s : σ) (r : τ),
    ((item.walk v s).1.walk w r).1 = item
  | ⟨e, _⟩, s, r => by
    simp only [SelectItem.walk, e.walk_walk undoes]

theorem walkItems_walkItems (undoes : w.Undoes v) : ∀ (items : List (SelectItem ν)) (s : σ) (r : τ),
    (walkItems w (walkItems v items s).1 r).1 = items
  | [], s, r => rfl
  | item :: items, s, r => by
    simp only [walkItems, item.walk_walk undoes, walkItems_walkItems undoes items]

theorem Assignment.walk_walk (undoes : w.Undoes v) : ∀ (a : Assignment ν) (s : σ) (r : τ),
    ((a.walk v s).1.walk w r).1 = a
  | ⟨_, e⟩, s, r => by
    simp only [Assignment.walk, e.walk_walk undoes]

theorem walkAssignments_walkAssignments (undoes : w.Undoes v) :
    ∀ (as : List (Assignment ν)) (s : σ) (r : τ),
      (walkAssignments w (walkAssignments v as s).1 r).1 = as
  | [], s, r => rfl
  | a :: rest, s, r => by
    simp only [walkAssignments, a.walk_walk undoes, walkAssignments_walkAssignments undoes rest]

theorem TableFactor.walk_walk (undoes : w.Undoes v) : ∀ (factor : TableFactor ν) (s : σ) (r : τ),
    ((factor.walk v s).1.walk w r).1 = factor
  | .table _ _ args _, s, r => by
    simp only [TableFactor.walk, walkExprs_walkExprs undoes args]
  | .derived _ q _, s, r => by
    simp only [TableFactor.walk, q.walk_walk undoes]
  | .nested item _, s, r => by
    simp only [TableFactor.walk, item.walk_walk undoes]

theorem Join.walk_walk (undoes : w.Undoes v) : ∀ (j : Join ν) (s : σ) (r : τ),
    ((j.walk v s).1.walk w r).1 = j
  | ⟨_, _, relation, condition, _⟩, s, r => by
    simp only [Join.walk, relation.walk_walk undoes, walkOption_walkOption undoes condition]

theorem walkJoins_walkJoins (undoes : w.Undoes v) : ∀ (js : List (Join ν)) (s : σ) (r : τ),
    (walkJoins w (walkJoins v js s).1 r).1 = js
  | [], s, r => rfl
  | j :: js, s, r => by
    simp only [walkJoins, j.walk_walk undoes, walkJoins_walkJoins undoes js]

theorem FromItem.walk_walk (undoes : w.Undoes v) : ∀ (item : FromItem ν) (s : σ) (r : τ),
    ((item.walk v s).1.walk w r).1 = item
  | ⟨relation, joins⟩, s, r => by
    simp only [FromItem.walk, relation.walk_walk undoes, walkJoins_walkJoins undoes joins]

theorem walkSources_walkSources (undoes : w.Undoes v) :
    ∀ (items : List (FromItem ν)) (s : σ) (r : τ),
      (walkSources w (walkSources v items s).1 r).1 = items
  | [], s, r => rfl
  | item :: items, s, r => by
    simp only [walkSources, item.walk_walk undoes, walkSources_walkSources undoes items]

theorem Select.walk_walk (undoes : w.Undoes v) : ∀ (x : Select ν) (s : σ) (r : τ),
    ((x.walk v s).1.walk w r).1 = x
  | ⟨_, quantifiers, projection, sources, filter, clauses⟩, s, r => by
    simp only [Select.walk, walkExprs_walkExprs undoes quantifiers,
      walkItems_walkItems undoes projection,
      walkSources_walkSources undoes sources, walkOption_walkOption undoes filter,
      walkExprs_walkExprs undoes clauses]

theorem SetExpr.walk_walk (undoes : w.Undoes v) : ∀ (body : SetExpr ν) (s : σ) (r : τ),
    ((body.walk v s).1.walk w r).1 = body
  | .select x, s, r | .insert x, s, r | .update x, s, r | .delete x, s, r | .query x, s, r => by
    simp only [SetExpr.walk, x.walk_walk undoes]
  | .operation _ _ left right, s, r => by
    simp only [SetExpr.walk, left.walk_walk undoes, right.walk_walk undoes]
  | .values _ rows, s, r => by
    simp only [SetExpr.walk, walkRows_walkRows undoes rows]

theorem Cte.walk_walk (undoes : w.Undoes v) : ∀ (c : Cte ν) (s : σ) (r : τ),
    ((c.walk v s).1.walk w r).1 = c
  | ⟨_, _, _, q⟩, s, r => by
    simp only [Cte.walk, q.walk_walk undoes]

theorem walkCtes_walkCtes (undoes : w.Undoes v) : ∀ (cs : List (Cte ν)) (s : σ) (r : τ),
    (walkCtes w (walkCtes v cs s).1 r).1 = cs
  | [], s, r => rfl
  | c :: cs, s, r => by
    simp only [walkCtes, c.walk_walk undoes, walkCtes_walkCtes undoes cs]

theorem Query.walk_walk (undoes : w.Undoes v) : ∀ (q : Query ν) (s : σ) (r : τ),
    ((q.walk v s).1.walk w r).1 = q
  | ⟨_, ctes, body, clauses⟩, s, r => by
    simp only [Query.walk, walkCtes_walkCtes undoes ctes, body.walk_walk undoes,
      walkExprs_walkExprs undoes clauses]

theorem walkQuery?_walkQuery? (undoes : w.Undoes v) : ∀ (q : Option (Query ν)) (s : σ) (r : τ),
    (walkQuery? w (walkQuery? v q s).1 r).1 = q
  | none, s, r => rfl
  | some q, s, r => by
    simp only [walkQuery?, q.walk_walk undoes]

theorem Insert.walk_walk (undoes : w.Undoes v) : ∀ (x : Insert ν) (s : σ) (r : τ),
    ((x.walk v s).1.walk w r).1 = x
  | ⟨_, _, _, _, source, assignments, _, _, updates, updateFilter, clauses⟩, s, r => by
    simp only [Insert.walk, walkQuery?_walkQuery? undoes source,
      walkAssignments_walkAssignments undoes assignments,
      walkAssignments_walkAssignments undoes updates,
      walkOption_walkOption undoes updateFilter, walkExprs_walkExprs undoes clauses]

theorem Update.walk_walk (undoes : w.Undoes v) : ∀ (x : Update ν) (s : σ) (r : τ),
    ((x.walk v s).1.walk w r).1 = x
  | ⟨_, target, _, assignments, sources, filter, clauses⟩, s, r => by
    simp only [Update.walk, target.walk_walk undoes,
      walkAssignments_walkAssignments undoes assignments,
      walkSources_walkSources undoes sources, walkOption_walkOption undoes filter,
      walkExprs_walkExprs undoes clauses]

theorem Delete.walk_walk (undoes : w.Undoes v) : ∀ (x : Delete ν) (s : σ) (r : τ),
    ((x.walk v s).1.walk w r).1 = x
  | ⟨_, _, sources, usingSources, filter, clauses⟩, s, r => by
    simp only [Delete.walk, walkSources_walkSources undoes sources,
      walkSources_walkSources undoes usingSources,
      walkOption_walkOption undoes filter, walkExprs_walkExprs undoes clauses]

end

theorem Statement.walk_walk (undoes : w.Undoes v) (t : Statement ν) (s : σ) (r : τ) :
    ((t.walk v s).1.walk w r).1 = t := by
  induction t generalizing s r with
  | query q => simp only [Statement.walk, q.walk_walk undoes]
  | insert x => simp only [Statement.walk, x.walk_walk undoes]
  | update x => simp only [Statement.walk, x.walk_walk undoes]
  | delete x => simp only [Statement.walk, x.walk_walk undoes]
  | explain _ t ih => simp only [Statement.walk, ih]
  | other _ _ operands q =>
    simp only [Statement.walk, walkExprs_walkExprs undoes operands, walkQuery?_walkQuery? undoes q]

theorem restoring_undoes_numbering : restoring.Undoes numbering := by
  intro x n _
  cases x with
  | placeholder mark =>
    cases mark with
    | anonymous => rfl
    | numbered ordinal => cases ordinal
    | named text => rfl
  | _ => rfl

/-- Numbering is reversible. -/
theorem Statement.restore_number (t : Statement) : t.number.1.restore = t :=
  t.walk_walk restoring_undoes_numbering 0 ()

end SealedColumns.Sql
