import SealedColumns.Proofs.Emission
import SealedColumns.Proofs.Legible
import SealedColumns.Proofs.Reached

/-!
The queries that read back from their own text, with their derived tables, joins, set operations and
common table expressions, and that they still do so when sealing has changed the projections and the
filters of their selects.
-/
namespace SealedColumns

namespace Sql

/-! The parts of a query with their placeholders restored. -/

def TableFactor.restored (factor : TableFactor Nat) : TableFactor := (factor.walk restoring ()).1

def Join.restored (join : Join Nat) : Join := (join.walk restoring ()).1

def FromItem.restored (item : FromItem Nat) : FromItem := (item.walk restoring ()).1

def SelectItem.restored (item : SelectItem Nat) : SelectItem := (item.walk restoring ()).1

def SetExpr.restored (body : SetExpr Nat) : SetExpr := (body.walk restoring ()).1

def Cte.restored (cte : Cte Nat) : Cte := (cte.walk restoring ()).1

section Walks

theorem walkOption_restoring (e : Option (Expr Nat)) :
    (walkOption restoring e ()).1 = e.map Expr.restored := by
  cases e <;> rfl

theorem walkItems_restoring (items : List (SelectItem Nat)) :
    (walkItems restoring items ()).1 = items.map SelectItem.restored := by
  induction items with
  | nil => rfl
  | cons item items ih => exact congrArg (item.restored :: ·) ih

theorem walkJoins_restoring (joins : List (Join Nat)) :
    (walkJoins restoring joins ()).1 = joins.map Join.restored := by
  induction joins with
  | nil => rfl
  | cons join joins ih => exact congrArg (join.restored :: ·) ih

theorem walkSources_restoring (items : List (FromItem Nat)) :
    (walkSources restoring items ()).1 = items.map FromItem.restored := by
  induction items with
  | nil => rfl
  | cons item items ih => exact congrArg (item.restored :: ·) ih

theorem walkCtes_restoring (ctes : List (Cte Nat)) :
    (walkCtes restoring ctes ()).1 = ctes.map Cte.restored := by
  induction ctes with
  | nil => rfl
  | cons cte ctes ih => exact congrArg (cte.restored :: ·) ih

theorem join_restored (kind : JoinKind) (natural : Bool) (relation : TableFactor Nat)
    (condition : Option (Expr Nat)) (shared : List Name) :
    Join.restored ⟨kind, natural, relation, condition, shared⟩ =
      ⟨kind, natural, relation.restored, condition.map Expr.restored, shared⟩ := by
  rw [← walkOption_restoring]
  rfl

theorem source_restored (relation : TableFactor Nat) (joins : List (Join Nat)) :
    FromItem.restored ⟨relation, joins⟩ = ⟨relation.restored, joins.map Join.restored⟩ := by
  rw [← walkJoins_restoring]
  rfl

theorem select_restored (items : List (SelectItem Nat)) (sources : List (FromItem Nat))
    (filter : Option (Expr Nat)) :
    SetExpr.restored (.select ⟨.standard, [], items, sources, filter, []⟩) =
      .select (selectAll (items.map SelectItem.restored) (sources.map FromItem.restored)
        (filter.map Expr.restored)) := by
  rw [← walkItems_restoring, ← walkSources_restoring, ← walkOption_restoring]
  rfl

theorem query_restored (recursive : Bool) (ctes : List (Cte Nat)) (body : SetExpr Nat) :
    Query.restored ⟨recursive, ctes, body, []⟩ =
      ⟨recursive, ctes.map Cte.restored, body.restored, []⟩ := by
  rw [← walkCtes_restoring]
  rfl

end Walks

/-- A whole expression that reads back. -/
def LegibleAlone (d : Dialect) (n : Nat) (e : Expr Nat) : Prop :=
  ∃ floor ceiling, Legible d n e floor ceiling ∧ 0 < ceiling

/-- An item of a projection: all columns, one column, or what sealing leaves alone. -/
inductive LegibleItem (d : Dialect) (n : Nat) : SelectItem Nat → Prop where
  | star : LegibleItem d n ⟨.star [], none⟩
  | column {qualifier : List Ident} {name first : Ident} {label : Option Ident} :
      (qualifier ++ [name]).head? = some first → first.isColumn d = true →
      (∀ ident ∈ qualifier ++ [name], ident.isPlain d = true) → qualifier.length < n →
      (∀ ident ∈ label, ident.isPlain d = true) →
        LegibleItem d n ⟨.column qualifier name, label⟩
  | other {item : SelectItem Nat} : item.expr.columnName? = none → ItemReads d n item.restored →
      LegibleItem d n item

/-- A source without a query in it. -/
def FromItem.isFlat (item : FromItem Nat) : Bool :=
  isTable item.relation && item.joins.all fun join => isTable join.relation
where
  isTable : TableFactor Nat → Bool
    | .table _ _ _ _ => true
    | _ => false

mutual

/-- Tables and derived tables that read back under their labels. -/
inductive LegibleFactor (d : Dialect) : Nat → TableFactor Nat → Prop where
  | table {n : Nat} {name : Name} {label : Option TableAlias} : isTableName d name = true →
      isLabel d label = true → LegibleFactor d n (.table name false [] label)
  | derived {n : Nat} {lateral : Bool} {q : Query Nat} {label : Option TableAlias} :
      LegibleQuery d n q → isLabel d label = true →
        LegibleFactor d (n + 1) (.derived lateral q label)

/-- Sources that read back: without a query in them, they are only asked to. -/
inductive LegibleSource (d : Dialect) : Nat → FromItem Nat → Prop where
  | flat {n : Nat} {item : FromItem Nat} : item.isFlat = true →
      SourceReads d n (stopsAt sourceWords) item.restored → LegibleSource d n item
  | joined {n : Nat} {relation : TableFactor Nat} {joins : List (Join Nat)} :
      LegibleFactor d n relation → (∀ join ∈ joins, LegibleFactor d n join.relation) →
      (∀ join ∈ joins, ConditionReads d n join.kind join.natural
        (join.condition.map Expr.restored) join.shared) →
        LegibleSource d n ⟨relation, joins⟩

/-- Bodies that read back. Their operators go on from the left and end at the right, as those of
expressions do. -/
inductive LegibleBody (d : Dialect) : Nat → SetExpr Nat → Nat → Nat → Prop where
  | select {n floor ceiling : Nat} {items : List (SelectItem Nat)} {sources : List (FromItem Nat)}
      {filter : Option (Expr Nat)} :
      items ≠ [] → (∀ item ∈ items, LegibleItem d (n + 1) item) →
      sources ≠ [] → (∀ item ∈ sources, LegibleSource d (n + 1) item) →
      (∀ e ∈ filter, LegibleAlone d n e) →
        LegibleBody d (n + 1) (.select ⟨.standard, [], items, sources, filter, []⟩) floor ceiling
  | query {n floor ceiling : Nat} {q : Query Nat} : LegibleQuery d n q →
      LegibleBody d (n + 1) (.query q) floor ceiling
  | operation {n floor ceiling floor' ceiling' : Nat} {op : SetOp} {quantifier : SetQuantifier}
      {l r : SetExpr Nat} :
      LegibleBody d n l floor ceiling → LegibleBody d n r floor' ceiling' →
      op.level ≤ floor → op.level < ceiling' →
        LegibleBody d n (.operation op quantifier l r) (min op.level floor') (min op.level ceiling)

inductive LegibleCte (d : Dialect) : Nat → Cte Nat → Prop where
  | cte {n : Nat} {name : Ident} {columns : List Ident} {materialized : Option Bool}
      {q : Query Nat} :
      name.isPlain d = true → name.formWord ≠ "RECURSIVE" →
      (∀ ident ∈ columns, ident.isPlain d = true) → materialized = none ∨ d = .postgres →
      LegibleQuery d n q → LegibleCte d (n + 1) ⟨name, columns, materialized, q⟩

/-- Queries that read back with `n` levels left. -/
inductive LegibleQuery (d : Dialect) : Nat → Query Nat → Prop where
  | query {n floor ceiling : Nat} {recursive : Bool} {ctes : List (Cte Nat)} {body : SetExpr Nat} :
      (∀ cte ∈ ctes, LegibleCte d n cte) → (ctes = [] → recursive = false) →
      LegibleBody d n body floor ceiling → 0 < ceiling →
        LegibleQuery d n ⟨recursive, ctes, body, []⟩

end

section Reads

variable {d : Dialect} {n : Nat}

theorem LegibleAlone.value {v : Value Nat} (plain : v.isPlain d = true) :
    LegibleAlone d n (.value v) :=
  ⟨0, 1, .value plain, Nat.one_pos⟩

theorem LegibleAlone.reads {e : Expr Nat} (legible : LegibleAlone d n e) :
    StandsAlone d n e.restored := by
  obtain ⟨floor, ceiling, legible, positive⟩ := legible
  exact ⟨floor, ceiling, legible.reads, positive⟩

theorem LegibleItem.reads {item : SelectItem Nat} (legible : LegibleItem d (n + 1) item) :
    ItemReads d (n + 1) item.restored := by
  cases legible with
  | star => exact star_reads
  | column head column plain deep labelled =>
    exact column_item_reads head column plain (Nat.le_of_lt_succ deep) labelled
  | other _ reads => exact reads

theorem filter_reads {filter : Option (Expr Nat)} (legible : ∀ e ∈ filter, LegibleAlone d n e) :
    ∀ e ∈ filter.map Expr.restored, StandsAlone d n e := by
  intro e member
  obtain ⟨e, here, rfl⟩ := Option.map_eq_some_iff.mp member
  exact (legible e here).reads

mutual

theorem LegibleFactor.reads : ∀ {n : Nat} {factor : TableFactor Nat}, LegibleFactor d n factor →
    FactorReads d n factor.restored
  | _, _, .table name label => table_factor_reads name label
  | _, _, .derived query label => derived_factor_reads query.reads label

theorem LegibleSource.reads : ∀ {n : Nat} {item : FromItem Nat}, LegibleSource d n item →
    SourceReads d n (stopsAt sourceWords) item.restored
  | _, _, .flat _ reads => reads
  | _, _, .joined table tables conditions => by
    rw [source_restored]
    refine source_reads table.reads (List.forall_mem_map.mpr fun join member => ?_)
    obtain ⟨kind, natural, relation, condition, shared⟩ := join
    rw [join_restored]
    exact join_reads (tables _ member).reads (conditions _ member)

theorem LegibleBody.reads : ∀ {n : Nat} {body : SetExpr Nat} {floor ceiling : Nat},
    LegibleBody d n body floor ceiling → BodyReads d n body.restored floor ceiling
  | _, _, _, _, .select projected eachItem nonempty each filters => by
    rw [select_restored]
    refine select_body_reads (by simpa using projected) ?_ (by simpa using nonempty) ?_
      (filter_reads filters) _ _
    · exact List.forall_mem_map.mpr fun item member => (eachItem item member).reads
    · exact List.forall_mem_map.mpr fun item member => (each item member).reads
  | _, _, _, _, .query query => query_body_reads query.reads _ _
  | _, _, _, _, .operation left right loose tight =>
    operation_reads left.reads right.reads loose tight _

theorem LegibleCte.reads : ∀ {n : Nat} {cte : Cte Nat}, LegibleCte d n cte →
    CteReads d n cte.restored
  | _, _, .cte plain word idents known query => cte_reads plain word idents known query.reads

theorem LegibleQuery.reads : ∀ {n : Nat} {q : Query Nat}, LegibleQuery d n q →
    QueryReads d n q.restored
  | _, _, .query each plain body positive => by
    rw [query_restored]
    refine query_reads (List.forall_mem_map.mpr fun cte member => (each cte member).reads) ?_
      body.reads positive
    exact fun empty => plain (List.map_eq_nil_iff.mp empty)

end

/-- EXISTS with a query that reads back. -/
theorem Legible.existence {negated : Bool} {q : Query Nat} (query : LegibleQuery d n q)
    (floor ceiling : Nat) : Legible d (n + 1) (.existence negated q) floor ceiling :=
  .closed rfl rfl (existence_reads negated query.reads floor ceiling)

/-- The value of a query that reads back and does not start with a parenthesis. -/
theorem Legible.subquery {q : Query Nat} (query : LegibleQuery d n q)
    (word : q.restored.opening ≠ .symbol "(") (floor ceiling : Nat) :
    Legible d (n + 1) (.subquery q) floor ceiling :=
  .closed rfl rfl (subquery_reads query.reads word floor ceiling)

end Reads

namespace Sample

def idsOf (table : String) : Query Nat :=
  ⟨false, [], .select ⟨.standard, [], [⟨.column [] (.bare "id"), none⟩],
    [⟨.table [.bare table] false [] none, []⟩], none, []⟩, []⟩

def idIn (table : String) : Expr Nat := .column [.bare table] (.bare "id")

/-- The numbers of the users that a common table expression lists, with their roles from a derived
table. -/
def joining : Query Nat :=
  ⟨false, [⟨.bare "listed", [], none, idsOf "users"⟩],
    .select ⟨.standard, [], [⟨.column [.bare "u"] (.bare "ssn"), none⟩],
      [⟨.table [.bare "users"] false [] (some ⟨true, .bare "u", []⟩),
        [⟨.left, false, .derived false (idsOf "roles") (some ⟨true, .bare "r", []⟩),
          some (.binary (idIn "u") .equal (idIn "r")), []⟩]⟩],
      some (.inQuery false (idIn "u") (idsOf "listed")), []⟩, []⟩

theorem idsOf_legible {table : String} (n : Nat)
    (name : isTableName .generic [.bare table] = true) :
    LegibleQuery .generic (n + 1) (idsOf table) := by
  have body : LegibleBody .generic (n + 1) (idsOf table).body 0 1 := by
    refine .select (List.cons_ne_nil _ _) (List.forall_mem_singleton.mpr ?_)
      (List.cons_ne_nil _ _) (List.forall_mem_singleton.mpr ?_) nofun
    · exact .column rfl (by decide) (by decide) (Nat.succ_pos n) nofun
    · exact .joined (.table name rfl) nofun nofun
  exact .query nofun (fun _ => rfl) body Nat.one_pos

/-- Joins, derived tables, subqueries and common table expressions in one query that reads back. -/
theorem joining_legible : LegibleQuery .generic 48 joining := by
  have users : Legible .generic 47 (idIn "u") 100 100 :=
    .column rfl (by decide) (by decide) (by decide)
  have roles : Legible .generic 46 (idIn "r") 100 100 :=
    .column rfl (by decide) (by decide) (by decide)
  have equal : LegibleAlone .generic 47 (.binary (idIn "u") .equal (idIn "r")) :=
    ⟨_, _, .binary (by decide) users roles (by decide) (by decide), by decide⟩
  have listed : LegibleAlone .generic 47 (.inQuery false (idIn "u") (idsOf "listed")) :=
    ⟨100, _, .inQuery users (idsOf_legible 45 (by decide)).reads (by decide), by decide⟩
  have source : LegibleSource .generic 48
      ⟨.table [.bare "users"] false [] (some ⟨true, .bare "u", []⟩),
        [⟨.left, false, .derived false (idsOf "roles") (some ⟨true, .bare "r", []⟩),
          some (.binary (idIn "u") .equal (idIn "r")), []⟩]⟩ := by
    refine .joined (.table (by decide) (by decide)) (List.forall_mem_singleton.mpr ?_)
      (List.forall_mem_singleton.mpr (.on rfl equal.reads))
    exact .derived (idsOf_legible 46 (by decide)) (by decide)
  have body : LegibleBody .generic 48 joining.body 0 1 := by
    refine .select (List.cons_ne_nil _ _) (List.forall_mem_singleton.mpr ?_)
      (List.cons_ne_nil _ _) (List.forall_mem_singleton.mpr source) ?_
    · exact .column rfl (by decide) (by decide) (by decide) nofun
    · rintro _ ⟨⟩
      exact listed
  refine .query (List.forall_mem_singleton.mpr ?_) nofun body Nat.one_pos
  exact .cte (by decide) (by decide) nofun (.inl rfl) (idsOf_legible 46 (by decide))

end Sample

end Sql

open Sql

section Flat

variable {projects : List (FromItem Nat) → List (SelectItem Nat) → List (SelectItem Nat) → Prop}
  {filters : List (FromItem Nat) → Option (Expr Nat) → Option (Expr Nat) → Prop}

theorem FactorSelectwise.eq_of_table {factor factor' : TableFactor Nat}
    (related : FactorSelectwise projects filters factor factor')
    (table : FromItem.isFlat.isTable factor = true) : factor' = factor := by
  cases related with
  | table => rfl
  | _ => cases table

theorem JoinsSelectwise.eq_of_tables {joins joins' : List (Join Nat)}
    (related : JoinsSelectwise projects filters joins joins')
    (tables : ∀ join ∈ joins, FromItem.isFlat.isTable join.relation = true) : joins' = joins := by
  induction joins generalizing joins' with
  | nil =>
    cases related
    rfl
  | cons join joins ih =>
    rw [List.forall_mem_cons] at tables
    cases related with
    | cons relation rest =>
      rw [relation.eq_of_table tables.1, ih rest tables.2]

theorem SourcesSelectwise.eq_of_flat {items items' : List (FromItem Nat)}
    (related : SourcesSelectwise projects filters items items')
    (flat : ∀ item ∈ items, item.isFlat = true) : items' = items := by
  induction items generalizing items' with
  | nil =>
    cases related
    rfl
  | cons item items ih =>
    rw [List.forall_mem_cons] at flat
    cases related with
    | cons relation joins rest =>
      obtain ⟨table, tables⟩ := Bool.and_eq_true_iff.mp flat.1
      rw [relation.eq_of_table table, joins.eq_of_tables (List.all_eq_true.mp tables),
        ih rest flat.2]

theorem SourcesSelectwise.ne_nil {items items' : List (FromItem Nat)}
    (related : SourcesSelectwise projects filters items items') (nonempty : items ≠ []) :
    items' ≠ [] := by
  cases related with
  | nil => exact absurd rfl nonempty
  | cons _ _ _ => exact List.cons_ne_nil _ _

theorem CtesSelectwise.eq_nil {ctes ctes' : List (Cte Nat)}
    (related : CtesSelectwise projects filters ctes ctes') (empty : ctes' = []) : ctes = [] := by
  cases related with
  | nil => rfl
  | cons _ _ => cases empty

end Flat

namespace Sealing

variable {g : Sealing} {d : Dialect} {n : Nat} {scope : List String}

theorem PredicateSealed.alone (writes : g.WritesPlain d) {e e' : Expr Nat}
    (run : g.PredicateSealed scope e e') (alone : LegibleAlone d n e) : LegibleAlone d n e' := by
  obtain ⟨floor, ceiling, legible, positive⟩ := alone
  exact ⟨floor, ceiling, run.legible writes legible, positive⟩

theorem FilterSealed.alone (writes : g.WritesPlain d) {filter filter' : Option (Expr Nat)}
    (run : g.FilterSealed scope filter filter') (each : ∀ e ∈ filter, LegibleAlone d n e) :
    ∀ e ∈ filter', LegibleAlone d n e := by
  cases run with
  | none => exact each
  | some _ sealed =>
    rintro e ⟨⟩
    exact sealed.alone writes (each _ rfl)
  | kept _ => exact each

theorem ItemSealed.legible (writes : g.WritesPlain d) {item item' : SelectItem Nat}
    (run : g.ItemSealed scope item item') (legible : LegibleItem d n item) :
    LegibleItem d n item' := by
  cases run with
  | kept _ => exact legible
  | @renamed c label projected labelled =>
    have known := sensitive?_mem (Option.filter_eq_some_iff.mp projected).1
    cases legible with
    | star => cases labelled
    | @column qualifier name first old head column plain deep labels =>
      obtain ⟨first, head, column, plain'⟩ :=
        renamed_column (writes.target c known) head column plain
      refine .column head column plain' deep ?_
      rintro ident ⟨⟩
      cases old with
      | none =>
        cases labelled
        exact plain _ (by simp)
      | some old =>
        cases labelled
        exact labels _ rfl
    | other unnamed _ =>
      obtain ⟨name, named⟩ := exists_columnName?_of_projected? projected
      rw [unnamed] at named
      cases named

theorem ProjectionSealed.legible (writes : g.WritesPlain d) {sources : List (FromItem Nat)}
    {items items' : List (SelectItem Nat)} (run : g.ProjectionSealed sources items items')
    (nonempty : items ≠ []) (each : ∀ item ∈ items, LegibleItem d n item) :
    items' ≠ [] ∧ ∀ item ∈ items', LegibleItem d n item := by
  have length := List.Forall₂.length_eq run
  refine ⟨fun empty => nonempty (List.length_eq_zero_iff.mp (by simp [length, empty])), ?_⟩
  clear nonempty length
  induction run with
  | nil => exact each
  | cons head _ ih =>
    rw [List.forall_mem_cons] at each ⊢
    exact ⟨ItemSealed.legible writes head each.1, ih each.2⟩

end Sealing

section Sealed

variable {g : Sealing} {d : Dialect}

mutual

theorem FactorSelectwise.legible (writes : g.WritesPlain d) : ∀ {factor factor' : TableFactor Nat}
    {n : Nat}, FactorSelectwise g.ProjectionSealed g.SelectFilterSealed factor factor' →
      LegibleFactor d n factor → LegibleFactor d n factor'
  | _, _, _, .table, legible => legible
  | _, _, _, .derived inner, .derived query label => .derived (inner.legible writes query) label

theorem JoinsSelectwise.legible (writes : g.WritesPlain d) : ∀ {joins joins' : List (Join Nat)}
    {n : Nat}, JoinsSelectwise g.ProjectionSealed g.SelectFilterSealed joins joins' →
      (∀ join ∈ joins, LegibleFactor d n join.relation) →
      (∀ join ∈ joins, ConditionReads d n join.kind join.natural
        (join.condition.map Expr.restored) join.shared) →
      (∀ join ∈ joins', LegibleFactor d n join.relation) ∧
        ∀ join ∈ joins', ConditionReads d n join.kind join.natural
          (join.condition.map Expr.restored) join.shared
  | _, _, _, .nil, tables, conditions => ⟨tables, conditions⟩
  | _, _, _, .cons relation joins, tables, conditions => by
    rw [List.forall_mem_cons] at tables conditions
    obtain ⟨tables', conditions'⟩ := joins.legible writes tables.2 conditions.2
    exact ⟨List.forall_mem_cons.mpr ⟨relation.legible writes tables.1, tables'⟩,
      List.forall_mem_cons.mpr ⟨conditions.1, conditions'⟩⟩

theorem SourcesSelectwise.legible (writes : g.WritesPlain d) :
    ∀ {items items' : List (FromItem Nat)} {n : Nat},
      SourcesSelectwise g.ProjectionSealed g.SelectFilterSealed items items' →
        (∀ item ∈ items, LegibleSource d n item) → ∀ item ∈ items', LegibleSource d n item
  | _, _, _, .nil, each => each
  | _, _, _, .cons relation joins items, each => by
    rw [List.forall_mem_cons] at each ⊢
    refine ⟨?_, items.legible writes each.2⟩
    cases each.1 with
    | flat flat reads =>
      -- Only derived tables are walked, so a flat source stays.
      obtain ⟨table, tables⟩ := Bool.and_eq_true_iff.mp flat
      rw [relation.eq_of_table table, joins.eq_of_tables (List.all_eq_true.mp tables)]
      exact .flat flat reads
    | joined table tables conditions =>
      obtain ⟨tables', conditions'⟩ := joins.legible writes tables conditions
      exact .joined (relation.legible writes table) tables' conditions'

theorem BodySelectwise.legible (writes : g.WritesPlain d) : ∀ {body body' : SetExpr Nat}
    {n floor ceiling : Nat}, BodySelectwise g.ProjectionSealed g.SelectFilterSealed body body' →
      LegibleBody d n body floor ceiling → LegibleBody d n body' floor ceiling
  | _, _, _, _, _, .kept _, legible => legible
  | _, _, _, _, _, .select projection sources filter, .select projected eachItem nonempty each
      filters => by
    obtain ⟨projected', eachItem'⟩ := projection.legible writes projected eachItem
    exact .select projected' eachItem' (sources.ne_nil nonempty) (sources.legible writes each)
      (filter.alone writes filters)
  | _, _, _, _, _, .query inner, .query query => .query (inner.legible writes query)
  | _, _, _, _, _, .operation left right, .operation l r loose tight =>
    .operation (left.legible writes l) (right.legible writes r) loose tight

theorem CtesSelectwise.legible (writes : g.WritesPlain d) : ∀ {ctes ctes' : List (Cte Nat)}
    {n : Nat}, CtesSelectwise g.ProjectionSealed g.SelectFilterSealed ctes ctes' →
      (∀ cte ∈ ctes, LegibleCte d n cte) → ∀ cte ∈ ctes', LegibleCte d n cte
  | _, _, _, .nil, each => each
  | _, _, _, .cons inner ctes, each => by
    rw [List.forall_mem_cons] at each ⊢
    refine ⟨?_, ctes.legible writes each.2⟩
    cases each.1 with
    | cte plain word idents known query =>
      exact .cte plain word idents known (inner.legible writes query)

/-- Sealing keeps a query one that reads back. -/
theorem Selectwise.legible (writes : g.WritesPlain d) : ∀ {q q' : Query Nat} {n : Nat},
    Selectwise g.ProjectionSealed g.SelectFilterSealed q q' → LegibleQuery d n q →
      LegibleQuery d n q'
  | _, _, _, .query ctes body, .query each plain legible positive =>
    .query (ctes.legible writes each) (fun empty => plain (ctes.eq_nil empty))
      (body.legible writes legible) positive

end

end Sealed

end SealedColumns
