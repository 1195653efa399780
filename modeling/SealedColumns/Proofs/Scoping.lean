import SealedColumns.Seal.Read

/-!
The walk over a query with its scope in a cell that all steps share. A select puts the tables of its
own FROM clause there and puts back what it found, whether it succeeds or fails; its projection and
its filter read the cell. This walk comes to the one that hands each select its scope.
-/
namespace SealedColumns

open Sql

/-- A step with a scope beside the draft. -/
abbrev ScopedSeal := ExceptT Error (StateM (List String × Draft))

namespace ScopedSeal

variable {α β : Type}

/-- A step that reads the scope in the cell. -/
def reading (f : List String → Seal α) : ScopedSeal α := ExceptT.mk fun (scope, d) =>
  let (result, d') := (f scope).run d
  (result, scope, d')

/-- A step that runs with another scope in the cell; then the old one is put back. -/
def within (scope : List String) (m : ScopedSeal α) : ScopedSeal α := ExceptT.mk do
  let (outer, d) ← get
  set (scope, d)
  let result ← m.run
  modify fun (_, d) => (outer, d)
  return result

theorem reading_pure (a : α) : (pure a : ScopedSeal α) = reading fun _ => pure a := rfl

theorem reading_bind (f : List String → Seal α) (h : α → List String → Seal β) :
    (reading f >>= fun a => reading (h a)) =
      reading fun scope => f scope >>= fun a => h a scope := by
  funext ⟨scope, d⟩
  simp only [reading, bind, ExceptT.bind, ExceptT.mk, StateT.bind, ExceptT.bindCont, ExceptT.run]
  rcases f scope d with ⟨_ | a, d'⟩ <;> rfl

theorem within_reading (scope : List String) (f : List String → Seal α) :
    within scope (reading f) = reading fun _ => f scope := rfl

end ScopedSeal

open ScopedSeal

namespace Sealing

variable (g : Sealing)

mutual

def scopedQuery : Query Nat → ScopedSeal (Query Nat)
  | ⟨recursive, ctes, body, clauses⟩ => do
    let ctes ← scopedCtes ctes
    let body ← scopedBody body
    return ⟨recursive, ctes, body, clauses⟩

def scopedCtes : List (Cte Nat) → ScopedSeal (List (Cte Nat))
  | [] => pure []
  | ⟨name, columns, materialized, query⟩ :: ctes => do
    let query ← scopedQuery query
    let ctes ← scopedCtes ctes
    return ⟨name, columns, materialized, query⟩ :: ctes

def scopedBody : SetExpr Nat → ScopedSeal (SetExpr Nat)
  | .select s => do return .select (← scopedSelect s)
  | .query q => do return .query (← scopedQuery q)
  | .operation op quantifier l r => do
    let l ← scopedBody l
    let r ← scopedBody r
    return .operation op quantifier l r
  | body => pure body

/-- The filter reads the cell after the selects of the FROM clause have used it. -/
def scopedSelect : Select Nat → ScopedSeal (Select Nat)
  | ⟨order, quantifiers, projection, sources, filter, clauses⟩ => within (scopeOf sources) do
    let projection ← reading fun scope => g.sealProjection scope projection
    let sources ← scopedSources sources
    let filter ← reading fun scope => g.sealFilter scope filter
    return ⟨order, quantifiers, projection, sources, filter, clauses⟩

def scopedSources : List (FromItem Nat) → ScopedSeal (List (FromItem Nat))
  | [] => pure []
  | item :: items => do
    let item ← scopedSource item
    let items ← scopedSources items
    return item :: items

def scopedSource : FromItem Nat → ScopedSeal (FromItem Nat)
  | ⟨relation, joins⟩ => do
    let relation ← scopedFactor relation
    let joins ← scopedJoins joins
    return ⟨relation, joins⟩

def scopedJoins : List (Join Nat) → ScopedSeal (List (Join Nat))
  | [] => pure []
  | ⟨kind, natural, relation, condition, shared⟩ :: joins => do
    let relation ← scopedFactor relation
    let joins ← scopedJoins joins
    return ⟨kind, natural, relation, condition, shared⟩ :: joins

def scopedFactor : TableFactor Nat → ScopedSeal (TableFactor Nat)
  | .derived lateral query label => do return .derived lateral (← scopedQuery query) label
  | .nested item label => do return .nested (← scopedSource item) label
  | factor => pure factor

end

variable {g}

mutual

theorem scopedQuery_eq : ∀ q : Query Nat, g.scopedQuery q = reading fun _ => g.sealQuery q
  | ⟨_, ctes, body, _⟩ => by
    simp only [scopedQuery, scopedCtes_eq ctes, scopedBody_eq body, reading_pure, reading_bind,
      sealQuery]

theorem scopedCtes_eq : ∀ ctes : List (Cte Nat),
    g.scopedCtes ctes = reading fun _ => g.sealCtes ctes
  | [] => rfl
  | ⟨_, _, _, query⟩ :: ctes => by
    simp only [scopedCtes, scopedQuery_eq query, scopedCtes_eq ctes, reading_pure, reading_bind,
      sealCtes]

theorem scopedBody_eq : ∀ body : SetExpr Nat,
    g.scopedBody body = reading fun _ => g.sealBody body
  | .select s => by simp only [scopedBody, scopedSelect_eq s, reading_pure, reading_bind, sealBody]
  | .query q => by simp only [scopedBody, scopedQuery_eq q, reading_pure, reading_bind, sealBody]
  | .operation _ _ l r => by
    simp only [scopedBody, scopedBody_eq l, scopedBody_eq r, reading_pure, reading_bind, sealBody]
  | .values _ _ | .insert _ | .update _ | .delete _ => rfl

theorem scopedSelect_eq : ∀ s : Select Nat, g.scopedSelect s = reading fun _ => g.sealSelect s
  | ⟨_, _, _, sources, _, _⟩ => by
    simp only [scopedSelect, scopedSources_eq sources, reading_pure, reading_bind, within_reading,
      sealSelect]

theorem scopedSources_eq : ∀ items : List (FromItem Nat),
    g.scopedSources items = reading fun _ => g.sealSources items
  | [] => rfl
  | item :: items => by
    simp only [scopedSources, scopedSource_eq item, scopedSources_eq items, reading_pure,
      reading_bind, sealSources]

theorem scopedSource_eq : ∀ item : FromItem Nat,
    g.scopedSource item = reading fun _ => g.sealSource item
  | ⟨relation, joins⟩ => by
    simp only [scopedSource, scopedFactor_eq relation, scopedJoins_eq joins, reading_pure,
      reading_bind, sealSource]

theorem scopedJoins_eq : ∀ joins : List (Join Nat),
    g.scopedJoins joins = reading fun _ => g.sealJoins joins
  | [] => rfl
  | ⟨_, _, relation, _, _⟩ :: joins => by
    simp only [scopedJoins, scopedFactor_eq relation, scopedJoins_eq joins, reading_pure,
      reading_bind, sealJoins]

theorem scopedFactor_eq : ∀ factor : TableFactor Nat,
    g.scopedFactor factor = reading fun _ => g.sealFactor factor
  | .table _ _ _ _ => rfl
  | .derived _ query _ => by
    simp only [scopedFactor, scopedQuery_eq query, reading_pure, reading_bind, sealFactor]
  | .nested item _ => by
    simp only [scopedFactor, scopedSource_eq item, reading_pure, reading_bind, sealFactor]

end

end Sealing

end SealedColumns
