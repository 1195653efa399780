import Mathlib.Data.List.Forall2
import SealedColumns.Proofs.Plan
import SealedColumns.Proofs.Predicate

/-!
Sealing a query changes the projections and the filters of its selects and nothing else. The selects
are those behind CTEs, set operations and derived tables; a subquery in an expression is not among
them.
-/
namespace SealedColumns

open Sql

/-- The bodies that hold no select. -/
def Sql.SetExpr.isClosed {ν : Type} : SetExpr ν → Bool
  | .select _ | .query _ | .operation _ _ _ _ => false
  | _ => true

section Selectwise

variable (projects : List (FromItem Nat) → List (SelectItem Nat) → List (SelectItem Nat) → Prop)
  (filters : List (FromItem Nat) → Option (Expr Nat) → Option (Expr Nat) → Prop)

mutual

/-- Two queries that differ only in the projections and filters of their selects, which are related
with regard to the FROM clause of the first. -/
inductive Selectwise : Query Nat → Query Nat → Prop where
  | query {recursive : Bool} {ctes ctes' : List (Cte Nat)} {body body' : SetExpr Nat}
      {clauses : List (Expr Nat)} : CtesSelectwise ctes ctes' → BodySelectwise body body' →
        Selectwise ⟨recursive, ctes, body, clauses⟩ ⟨recursive, ctes', body', clauses⟩

inductive CtesSelectwise : List (Cte Nat) → List (Cte Nat) → Prop where
  | nil : CtesSelectwise [] []
  | cons {name : Ident} {columns : List Ident} {materialized : Option Bool} {q q' : Query Nat}
      {ctes ctes' : List (Cte Nat)} : Selectwise q q' → CtesSelectwise ctes ctes' →
        CtesSelectwise (⟨name, columns, materialized, q⟩ :: ctes)
          (⟨name, columns, materialized, q'⟩ :: ctes')

inductive BodySelectwise : SetExpr Nat → SetExpr Nat → Prop where
  | select {order : SelectOrder} {quantifiers : List (Expr Nat)}
      {projection projection' : List (SelectItem Nat)} {sources sources' : List (FromItem Nat)}
      {filter filter' : Option (Expr Nat)} {clauses : List (Expr Nat)} :
      projects sources projection projection' → SourcesSelectwise sources sources' →
      filters sources filter filter' →
        BodySelectwise (.select ⟨order, quantifiers, projection, sources, filter, clauses⟩)
          (.select ⟨order, quantifiers, projection', sources', filter', clauses⟩)
  | query {q q' : Query Nat} : Selectwise q q' → BodySelectwise (.query q) (.query q')
  | operation {op : SetOp} {quantifier : SetQuantifier} {l l' r r' : SetExpr Nat} :
      BodySelectwise l l' → BodySelectwise r r' →
        BodySelectwise (.operation op quantifier l r) (.operation op quantifier l' r')
  | kept {body : SetExpr Nat} : body.isClosed = true → BodySelectwise body body

inductive SourcesSelectwise : List (FromItem Nat) → List (FromItem Nat) → Prop where
  | nil : SourcesSelectwise [] []
  | cons {relation relation' : TableFactor Nat} {joins joins' : List (Join Nat)}
      {items items' : List (FromItem Nat)} :
      FactorSelectwise relation relation' → JoinsSelectwise joins joins' →
      SourcesSelectwise items items' →
        SourcesSelectwise (⟨relation, joins⟩ :: items) (⟨relation', joins'⟩ :: items')

inductive JoinsSelectwise : List (Join Nat) → List (Join Nat) → Prop where
  | nil : JoinsSelectwise [] []
  | cons {kind : JoinKind} {natural : Bool} {relation relation' : TableFactor Nat}
      {condition : Option (Expr Nat)} {shared : List Name} {joins joins' : List (Join Nat)} :
      FactorSelectwise relation relation' → JoinsSelectwise joins joins' →
        JoinsSelectwise (⟨kind, natural, relation, condition, shared⟩ :: joins)
          (⟨kind, natural, relation', condition, shared⟩ :: joins')

inductive FactorSelectwise : TableFactor Nat → TableFactor Nat → Prop where
  | table {name : Name} {isCall : Bool} {args : List (Expr Nat)} {label : Option TableAlias} :
      FactorSelectwise (.table name isCall args label) (.table name isCall args label)
  | derived {lateral : Bool} {q q' : Query Nat} {label : Option TableAlias} : Selectwise q q' →
      FactorSelectwise (.derived lateral q label) (.derived lateral q' label)
  | nested {relation relation' : TableFactor Nat} {joins joins' : List (Join Nat)}
      {label : Option TableAlias} :
      FactorSelectwise relation relation' → JoinsSelectwise joins joins' →
        FactorSelectwise (.nested ⟨relation, joins⟩ label) (.nested ⟨relation', joins'⟩ label)

end

variable {projects projects' :
    List (FromItem Nat) → List (SelectItem Nat) → List (SelectItem Nat) → Prop}
  {filters filters' : List (FromItem Nat) → Option (Expr Nat) → Option (Expr Nat) → Prop}

theorem BodySelectwise.of_select {s s' : Select Nat}
    (related : BodySelectwise projects filters (.select s) (.select s')) :
    projects s.sources s.projection s'.projection ∧ filters s.sources s.filter s'.filter := by
  cases related with
  | select projection _ filter => exact ⟨projection, filter⟩
  | kept closed => cases closed

structure SelectsImply (projects projects' :
      List (FromItem Nat) → List (SelectItem Nat) → List (SelectItem Nat) → Prop)
    (filters filters' : List (FromItem Nat) → Option (Expr Nat) → Option (Expr Nat) → Prop) :
    Prop where
  projections : ∀ {sources items items'}, projects sources items items' →
    projects' sources items items'
  filters : ∀ {sources filter filter'}, filters sources filter filter' →
    filters' sources filter filter'

mutual

theorem Selectwise.imp (weaker : SelectsImply projects projects' filters filters') :
    ∀ {q q' : Query Nat}, Selectwise projects filters q q' → Selectwise projects' filters' q q'
  | _, _, .query ctes body => .query (ctes.imp weaker) (body.imp weaker)

theorem CtesSelectwise.imp (weaker : SelectsImply projects projects' filters filters') :
    ∀ {ctes ctes' : List (Cte Nat)}, CtesSelectwise projects filters ctes ctes' →
      CtesSelectwise projects' filters' ctes ctes'
  | _, _, .nil => .nil
  | _, _, .cons query ctes => .cons (query.imp weaker) (ctes.imp weaker)

theorem BodySelectwise.imp (weaker : SelectsImply projects projects' filters filters') :
    ∀ {body body' : SetExpr Nat}, BodySelectwise projects filters body body' →
      BodySelectwise projects' filters' body body'
  | _, _, .select projection sources filter =>
    .select (weaker.projections projection) (sources.imp weaker) (weaker.filters filter)
  | _, _, .query query => .query (query.imp weaker)
  | _, _, .operation left right => .operation (left.imp weaker) (right.imp weaker)
  | _, _, .kept closed => .kept closed

theorem SourcesSelectwise.imp (weaker : SelectsImply projects projects' filters filters') :
    ∀ {items items' : List (FromItem Nat)}, SourcesSelectwise projects filters items items' →
      SourcesSelectwise projects' filters' items items'
  | _, _, .nil => .nil
  | _, _, .cons relation joins items =>
    .cons (relation.imp weaker) (joins.imp weaker) (items.imp weaker)

theorem JoinsSelectwise.imp (weaker : SelectsImply projects projects' filters filters') :
    ∀ {joins joins' : List (Join Nat)}, JoinsSelectwise projects filters joins joins' →
      JoinsSelectwise projects' filters' joins joins'
  | _, _, .nil => .nil
  | _, _, .cons relation joins => .cons (relation.imp weaker) (joins.imp weaker)

theorem FactorSelectwise.imp (weaker : SelectsImply projects projects' filters filters') :
    ∀ {factor factor' : TableFactor Nat}, FactorSelectwise projects filters factor factor' →
      FactorSelectwise projects' filters' factor factor'
  | _, _, .table => .table
  | _, _, .derived query => .derived (query.imp weaker)
  | _, _, .nested relation joins => .nested (relation.imp weaker) (joins.imp weaker)

end

end Selectwise

namespace Sealing

/-- An item keeps its output name, and is a renamed column or the item as it was; a sensitive column
stays only if nothing is overwritten. -/
inductive ItemSealed (g : Sealing) (scope : List String) : SelectItem Nat → SelectItem Nat → Prop
    where
  | renamed {item : SelectItem Nat} {c : SensitiveColumn} {label : Ident} :
      g.projected? scope item.expr = some c → item.label.or item.expr.columnName? = some label →
        ItemSealed g scope item ⟨item.expr.renameColumn c.target, some label⟩
  | kept {item : SelectItem Nat} :
      (g.options.overwrite = true → g.projected? scope item.expr = none) →
        ItemSealed g scope item item

def ProjectionSealed (g : Sealing) (sources : List (FromItem Nat)) :
    List (SelectItem Nat) → List (SelectItem Nat) → Prop :=
  List.Forall₂ (g.ItemSealed (scopeOf sources))

def SelectFilterSealed (g : Sealing) (sources : List (FromItem Nat)) :
    Option (Expr Nat) → Option (Expr Nat) → Prop :=
  g.FilterSealed (scopeOf sources)

variable {g : Sealing}

theorem exists_columnName?_of_projected? {scope : List String} {e : Expr Nat} {c : SensitiveColumn}
    (projected : g.projected? scope e = some c) : ∃ name, e.columnName? = some name := by
  have sensitive := (Option.filter_eq_some_iff.mp projected).1
  unfold sensitive? at sensitive
  split at sensitive
  · rename_i name named
    exact ⟨name, named⟩
  · cases sensitive

theorem sealItem_sealed {scope : List String} {item item' : SelectItem Nat} {d d' : Draft}
    (run : (g.sealItem scope item).Gives d item' d') : g.ItemSealed scope item item' := by
  unfold sealItem at run
  split at run
  · rename_i column label projected labelled
    simp only [recordAlias, Seal.gives_bind, Seal.gives_modify, Seal.gives_pure] at run
    obtain ⟨_, _, rfl, rfl, rfl⟩ := run
    exact .renamed projected labelled
  · rename_i unmatched
    rw [Seal.gives_pure] at run
    obtain ⟨rfl, rfl⟩ := run
    refine .kept fun _ => Option.eq_none_iff_forall_ne_some.mpr fun c projected => ?_
    obtain ⟨name, named⟩ := exists_columnName?_of_projected? projected
    exact unmatched c (item.label.getD name) projected (by cases item.label <;> simp [named])

theorem sealProjection_sealed {sources : List (FromItem Nat)} {items items' : List (SelectItem Nat)}
    {d d' : Draft} (run : (g.sealProjection (scopeOf sources) items).Gives d items' d') :
    g.ProjectionSealed sources items items' := by
  unfold sealProjection at run
  split at run
  · exact (Seal.gives_mapM run).imp fun _ _ ⟨_, _, step⟩ => sealItem_sealed step
  · rename_i idle
    rw [Seal.gives_pure] at run
    obtain ⟨rfl, rfl⟩ := run
    refine List.forall₂_same.mpr fun item _ => .kept fun overwrite => ?_
    have empty : scopeOf sources = [] := by simpa [overwrite] using idle
    simp [projected?, empty]

/-- What is said of projections and of filters holds of every run that seals one. -/
structure SelectRuns (g : Sealing)
    (projects : List (FromItem Nat) → List (SelectItem Nat) → List (SelectItem Nat) → Prop)
    (filters : List (FromItem Nat) → Option (Expr Nat) → Option (Expr Nat) → Prop) : Prop where
  projection : ∀ {sources items items' d d'},
    (g.sealProjection (scopeOf sources) items).Gives d items' d' → projects sources items items'
  filter : ∀ {sources filter filter' d d'},
    (g.sealFilter (scopeOf sources) filter).Gives d filter' d' → filters sources filter filter'

section Runs

variable {projects : List (FromItem Nat) → List (SelectItem Nat) → List (SelectItem Nat) → Prop}
  {filters : List (FromItem Nat) → Option (Expr Nat) → Option (Expr Nat) → Prop}

mutual

theorem sealQuery_runs (runs : g.SelectRuns projects filters) :
    ∀ (q : Query Nat) {d d' : Draft} {q' : Query Nat},
    (g.sealQuery q).Gives d q' d' → Selectwise projects filters q q'
  | ⟨recursive, ctes, body, clauses⟩, d, d', q', run => by
    simp only [sealQuery, Seal.gives_bind, Seal.gives_pure] at run
    obtain ⟨ctes', _, first, body', _, second, rfl, rfl⟩ := run
    exact .query (sealCtes_runs runs ctes first) (sealBody_runs runs body second)

theorem sealCtes_runs (runs : g.SelectRuns projects filters) :
    ∀ (ctes : List (Cte Nat)) {d d' : Draft} {ctes' : List (Cte Nat)},
    (g.sealCtes ctes).Gives d ctes' d' →
      CtesSelectwise projects filters ctes ctes'
  | [], d, d', ctes', run => by
    simp only [sealCtes, Seal.gives_pure] at run
    obtain ⟨rfl, rfl⟩ := run
    exact .nil
  | ⟨name, columns, materialized, query⟩ :: ctes, d, d', ctes', run => by
    simp only [sealCtes, Seal.gives_bind, Seal.gives_pure] at run
    obtain ⟨query', _, first, rest', _, second, rfl, rfl⟩ := run
    exact .cons (sealQuery_runs runs query first) (sealCtes_runs runs ctes second)

theorem sealBody_runs (runs : g.SelectRuns projects filters) :
    ∀ (body : SetExpr Nat) {d d' : Draft} {body' : SetExpr Nat},
    (g.sealBody body).Gives d body' d' →
      BodySelectwise projects filters body body'
  | .select ⟨order, quantifiers, projection, sources, filter, clauses⟩, d, d', body', run => by
    simp only [sealBody, sealSelect, Seal.gives_bind, Seal.gives_pure] at run
    obtain ⟨s', _, ⟨projection', _, first, sources', _, second, filter', _, third, rfl, rfl⟩, rfl,
      rfl⟩ := run
    exact .select (runs.projection first) (sealSources_runs runs sources second)
      (runs.filter third)
  | .query q, d, d', body', run => by
    simp only [sealBody, Seal.gives_bind, Seal.gives_pure] at run
    obtain ⟨q', _, first, rfl, rfl⟩ := run
    exact .query (sealQuery_runs runs q first)
  | .operation op quantifier l r, d, d', body', run => by
    simp only [sealBody, Seal.gives_bind, Seal.gives_pure] at run
    obtain ⟨l', _, first, r', _, second, rfl, rfl⟩ := run
    exact .operation (sealBody_runs runs l first) (sealBody_runs runs r second)
  | .values _ _, _, _, _, run | .insert _, _, _, _, run | .update _, _, _, _, run
  | .delete _, _, _, _, run => by
    simp only [sealBody, Seal.gives_pure] at run
    obtain ⟨rfl, rfl⟩ := run
    exact .kept rfl

theorem sealSources_runs (runs : g.SelectRuns projects filters) :
    ∀ (items : List (FromItem Nat)) {d d' : Draft}
    {items' : List (FromItem Nat)}, (g.sealSources items).Gives d items' d' →
      SourcesSelectwise projects filters items items'
  | [], d, d', items', run => by
    simp only [sealSources, Seal.gives_pure] at run
    obtain ⟨rfl, rfl⟩ := run
    exact .nil
  | ⟨relation, joins⟩ :: items, d, d', items', run => by
    simp only [sealSources, sealSource, Seal.gives_bind, Seal.gives_pure] at run
    obtain ⟨item', _, ⟨relation', _, first, joins', _, second, rfl, rfl⟩, rest', _, third, rfl,
      rfl⟩ := run
    exact .cons (sealFactor_runs runs relation first) (sealJoins_runs runs joins second)
      (sealSources_runs runs items third)

theorem sealJoins_runs (runs : g.SelectRuns projects filters) :
    ∀ (joins : List (Join Nat)) {d d' : Draft}
    {joins' : List (Join Nat)},
    (g.sealJoins joins).Gives d joins' d' →
      JoinsSelectwise projects filters joins joins'
  | [], d, d', joins', run => by
    simp only [sealJoins, Seal.gives_pure] at run
    obtain ⟨rfl, rfl⟩ := run
    exact .nil
  | ⟨kind, natural, relation, condition, shared⟩ :: joins, d, d', joins', run => by
    simp only [sealJoins, Seal.gives_bind, Seal.gives_pure] at run
    obtain ⟨relation', _, first, rest', _, second, rfl, rfl⟩ := run
    exact .cons (sealFactor_runs runs relation first) (sealJoins_runs runs joins second)

theorem sealFactor_runs (runs : g.SelectRuns projects filters) :
    ∀ (factor : TableFactor Nat) {d d' : Draft}
    {factor' : TableFactor Nat}, (g.sealFactor factor).Gives d factor' d' →
      FactorSelectwise projects filters factor factor'
  | .table _ _ _ _, d, d', factor', run => by
    simp only [sealFactor, Seal.gives_pure] at run
    obtain ⟨rfl, rfl⟩ := run
    exact .table
  | .derived lateral query label, d, d', factor', run => by
    simp only [sealFactor, Seal.gives_bind, Seal.gives_pure] at run
    obtain ⟨query', _, first, rfl, rfl⟩ := run
    exact .derived (sealQuery_runs runs query first)
  | .nested ⟨relation, joins⟩ label, d, d', factor', run => by
    simp only [sealFactor, sealSource, Seal.gives_bind, Seal.gives_pure] at run
    obtain ⟨item', _, ⟨relation', _, first, joins', _, second, rfl, rfl⟩, rfl, rfl⟩ := run
    exact .nested (sealFactor_runs runs relation first) (sealJoins_runs runs joins second)

end

end Runs

theorem sealQuery_selectwise (q : Query Nat) {d d' : Draft} {q' : Query Nat}
    (run : (g.sealQuery q).Gives d q' d') :
    Selectwise g.ProjectionSealed g.SelectFilterSealed q q' :=
  sealQuery_runs ⟨sealProjection_sealed, sealFilter_sealed⟩ q run

end Sealing

end SealedColumns
