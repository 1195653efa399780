import SealedColumns.Sql.Syntax

/-!
One pass over a statement that meets every value and every table name in visit order, threading a
state and rebuilding the tree. Types, the escape of a pattern and the other words of a frame hold
no values.
-/
namespace SealedColumns.Sql

/-- A visitor turns the ordinals `ν` of a tree into ordinals `μ`. -/
structure Visitor (ν μ σ : Type) where
  value : Value ν → σ → Value μ × σ
  table : Name → σ → σ

variable {ν μ σ : Type}

mutual

def Expr.walk (v : Visitor ν μ σ) : Expr ν → σ → Expr μ × σ
  | .column qualifier name, s => (.column qualifier name, s)
  | .value x, s =>
    let (x, s) := v.value x s
    (.value x, s)
  | .nested e, s =>
    let (e, s) := e.walk v s
    (.nested e, s)
  | .unary op e, s =>
    let (e, s) := e.walk v s
    (.unary op e, s)
  | .isNull negated e, s =>
    let (e, s) := e.walk v s
    (.isNull negated e, s)
  | .binary l op r, s =>
    let (l, s) := l.walk v s
    let (r, s) := r.walk v s
    (.binary l op r, s)
  | .pattern kind negated e p escape, s =>
    let (e, s) := e.walk v s
    let (p, s) := p.walk v s
    (.pattern kind negated e p escape, s)
  | .inList negated e items, s =>
    let (e, s) := e.walk v s
    let (items, s) := walkExprs v items s
    (.inList negated e items, s)
  | .inQuery negated e q, s =>
    let (e, s) := e.walk v s
    let (q, s) := q.walk v s
    (.inQuery negated e q, s)
  | .call name quantifier args clauses tail, s =>
    let (args, s) := walkExprs v args s
    let (clauses, s) := walkExprs v clauses s
    let (tail, s) := walkExprs v tail s
    (.call name quantifier args clauses tail, s)
  | .argument name arrow e, s =>
    let (e, s) := e.walk v s
    (.argument name arrow e, s)
  | .star qualifier, s => (.star qualifier, s)
  | .existence negated q, s =>
    let (q, s) := q.walk v s
    (.existence negated q, s)
  | .subquery q, s =>
    let (q, s) := q.walk v s
    (.subquery q, s)
  | .framed frame es, s =>
    let (es, s) := walkExprs v es s
    (.framed frame es, s)

def walkExprs (v : Visitor ν μ σ) : List (Expr ν) → σ → List (Expr μ) × σ
  | [], s => ([], s)
  | e :: es, s =>
    let (e, s) := e.walk v s
    let (es, s) := walkExprs v es s
    (e :: es, s)

def walkOption (v : Visitor ν μ σ) : Option (Expr ν) → σ → Option (Expr μ) × σ
  | none, s => (none, s)
  | some e, s =>
    let (e, s) := e.walk v s
    (some e, s)

def walkRows (v : Visitor ν μ σ) : List (List (Expr ν)) → σ → List (List (Expr μ)) × σ
  | [], s => ([], s)
  | row :: rows, s =>
    let (row, s) := walkExprs v row s
    let (rows, s) := walkRows v rows s
    (row :: rows, s)

def SelectItem.walk (v : Visitor ν μ σ) : SelectItem ν → σ → SelectItem μ × σ
  | ⟨e, label⟩, s =>
    let (e, s) := e.walk v s
    (⟨e, label⟩, s)

def walkItems (v : Visitor ν μ σ) : List (SelectItem ν) → σ → List (SelectItem μ) × σ
  | [], s => ([], s)
  | item :: items, s =>
    let (item, s) := item.walk v s
    let (items, s) := walkItems v items s
    (item :: items, s)

def Assignment.walk (v : Visitor ν μ σ) : Assignment ν → σ → Assignment μ × σ
  | ⟨target, e⟩, s =>
    let (e, s) := e.walk v s
    (⟨target, e⟩, s)

def walkAssignments (v : Visitor ν μ σ) : List (Assignment ν) → σ → List (Assignment μ) × σ
  | [], s => ([], s)
  | a :: rest, s =>
    let (a, s) := a.walk v s
    let (rest, s) := walkAssignments v rest s
    (a :: rest, s)

def TableFactor.walk (v : Visitor ν μ σ) : TableFactor ν → σ → TableFactor μ × σ
  | .table name isCall args label, s =>
    let (args, s) := walkExprs v args (v.table name s)
    (.table name isCall args label, s)
  | .derived lateral q label, s =>
    let (q, s) := q.walk v s
    (.derived lateral q label, s)
  | .nested item label, s =>
    let (item, s) := item.walk v s
    (.nested item label, s)

def Join.walk (v : Visitor ν μ σ) : Join ν → σ → Join μ × σ
  | ⟨kind, natural, relation, condition, shared⟩, s =>
    let (relation, s) := relation.walk v s
    let (condition, s) := walkOption v condition s
    (⟨kind, natural, relation, condition, shared⟩, s)

def walkJoins (v : Visitor ν μ σ) : List (Join ν) → σ → List (Join μ) × σ
  | [], s => ([], s)
  | j :: js, s =>
    let (j, s) := j.walk v s
    let (js, s) := walkJoins v js s
    (j :: js, s)

def FromItem.walk (v : Visitor ν μ σ) : FromItem ν → σ → FromItem μ × σ
  | ⟨relation, joins⟩, s =>
    let (relation, s) := relation.walk v s
    let (joins, s) := walkJoins v joins s
    (⟨relation, joins⟩, s)

def walkSources (v : Visitor ν μ σ) : List (FromItem ν) → σ → List (FromItem μ) × σ
  | [], s => ([], s)
  | item :: items, s =>
    let (item, s) := item.walk v s
    let (items, s) := walkSources v items s
    (item :: items, s)

def Select.walk (v : Visitor ν μ σ) : Select ν → σ → Select μ × σ
  | ⟨order, quantifiers, projection, sources, filter, clauses⟩, s =>
    let (quantifiers, s) := walkExprs v quantifiers s
    let (projection, s) := walkItems v projection s
    let (sources, s) := walkSources v sources s
    let (filter, s) := walkOption v filter s
    let (clauses, s) := walkExprs v clauses s
    (⟨order, quantifiers, projection, sources, filter, clauses⟩, s)

def SetExpr.walk (v : Visitor ν μ σ) : SetExpr ν → σ → SetExpr μ × σ
  | .select x, s =>
    let (x, s) := x.walk v s
    (.select x, s)
  | .query q, s =>
    let (q, s) := q.walk v s
    (.query q, s)
  | .operation op quantifier l r, s =>
    let (l, s) := l.walk v s
    let (r, s) := r.walk v s
    (.operation op quantifier l r, s)
  | .values rowWord rows, s =>
    let (rows, s) := walkRows v rows s
    (.values rowWord rows, s)
  | .insert x, s =>
    let (x, s) := x.walk v s
    (.insert x, s)
  | .update x, s =>
    let (x, s) := x.walk v s
    (.update x, s)
  | .delete x, s =>
    let (x, s) := x.walk v s
    (.delete x, s)

def Cte.walk (v : Visitor ν μ σ) : Cte ν → σ → Cte μ × σ
  | ⟨name, columns, materialized, q⟩, s =>
    let (q, s) := q.walk v s
    (⟨name, columns, materialized, q⟩, s)

def walkCtes (v : Visitor ν μ σ) : List (Cte ν) → σ → List (Cte μ) × σ
  | [], s => ([], s)
  | c :: cs, s =>
    let (c, s) := c.walk v s
    let (cs, s) := walkCtes v cs s
    (c :: cs, s)

def Query.walk (v : Visitor ν μ σ) : Query ν → σ → Query μ × σ
  | ⟨recursive, ctes, body, clauses⟩, s =>
    let (ctes, s) := walkCtes v ctes s
    let (body, s) := body.walk v s
    let (clauses, s) := walkExprs v clauses s
    (⟨recursive, ctes, body, clauses⟩, s)

def walkQuery? (v : Visitor ν μ σ) : Option (Query ν) → σ → Option (Query μ) × σ
  | none, s => (none, s)
  | some q, s =>
    let (q, s) := q.walk v s
    (some q, s)

def Insert.walk (v : Visitor ν μ σ) : Insert ν → σ → Insert μ × σ
  | ⟨verb, table, label, columns, source, assignments, rowAlias, conflict, updates, updateFilter,
      clauses⟩, s =>
    let (source, s) := walkQuery? v source (v.table table s)
    let (assignments, s) := walkAssignments v assignments s
    let (updates, s) := walkAssignments v updates s
    let (updateFilter, s) := walkOption v updateFilter s
    let (clauses, s) := walkExprs v clauses s
    (⟨verb, table, label, columns, source, assignments, rowAlias, conflict, updates, updateFilter,
      clauses⟩, s)

def Update.walk (v : Visitor ν μ σ) : Update ν → σ → Update μ × σ
  | ⟨resolution, target, sourcesFirst, assignments, sources, filter, clauses⟩, s =>
    let (target, s) := target.walk v s
    let (assignments, s) := walkAssignments v assignments s
    let (sources, s) := walkSources v sources s
    let (filter, s) := walkOption v filter s
    let (clauses, s) := walkExprs v clauses s
    (⟨resolution, target, sourcesFirst, assignments, sources, filter, clauses⟩, s)

def Delete.walk (v : Visitor ν μ σ) : Delete ν → σ → Delete μ × σ
  | ⟨targets, fromWord, sources, usingSources, filter, clauses⟩, s =>
    let (sources, s) := walkSources v sources s
    let (usingSources, s) := walkSources v usingSources s
    let (filter, s) := walkOption v filter s
    let (clauses, s) := walkExprs v clauses s
    (⟨targets, fromWord, sources, usingSources, filter, clauses⟩, s)

end

def Statement.walk (v : Visitor ν μ σ) : Statement ν → σ → Statement μ × σ
  | .query q, s =>
    let (q, s) := q.walk v s
    (.query q, s)
  | .insert x, s =>
    let (x, s) := x.walk v s
    (.insert x, s)
  | .update x, s =>
    let (x, s) := x.walk v s
    (.update x, s)
  | .delete x, s =>
    let (x, s) := x.walk v s
    (.delete x, s)
  | .explain words statement, s =>
    let (statement, s) := statement.walk v s
    (.explain words statement, s)
  | .other tables frame operands q, s =>
    let (operands, s) := walkExprs v operands (tables.foldl (fun s t => v.table t s) s)
    let (q, s) := walkQuery? v q s
    (.other tables frame operands q, s)

def Statement.tableNames (statement : Statement ν) : List Name :=
  (statement.walk ⟨fun x names => (x, names), fun name names => names ++ [name]⟩ []).2

/-- Gives the anonymous placeholders their ordinals; also returns their number. -/
def Statement.number (statement : Statement) : Statement Nat × Nat :=
  statement.walk ⟨fun x n =>
    match x with
    | .placeholder .anonymous => (.placeholder (.numbered n), n + 1)
    | x => (x.remark Empty.elim, n), fun _ n => n⟩ 0

def Statement.restore (statement : Statement Nat) : Statement :=
  (statement.walk ⟨fun x (_ : Unit) => (x.remark fun _ => .anonymous, ()), fun _ _ => ()⟩ ()).1

def Statement.countAnonymous (statement : Statement ν) : Nat :=
  (statement.walk ⟨fun x n =>
    match x with
    | .placeholder .anonymous => (x, n + 1)
    | x => (x, n), fun _ n => n⟩ 0).2

end SealedColumns.Sql
