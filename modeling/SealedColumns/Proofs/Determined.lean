import SealedColumns.Proofs.Indexing
import SealedColumns.Proofs.Reached

/-!
What sealing makes of a select is a matter of the select. All runs that succeed give the same
result, from whatever parameters, names and aliases they start, so a select is sealed to the same
one inside of a query as on its own.
-/
namespace SealedColumns

open Sql

namespace Seal

variable {α β : Type}

/-- All runs that succeed give the same result, whatever the draft. -/
def Determined (m : Seal α) : Prop := ∀ d₁ d₁' a₁ d₂ d₂' a₂,
  m.Gives d₁ a₁ d₁' → m.Gives d₂ a₂ d₂' → a₁ = a₂

namespace Determined

theorem pure (a : α) : Determined (pure a : Seal α) := by
  intro _ _ _ _ _ _ first second
  rw [gives_pure] at first second
  exact first.1.symm.trans second.1

theorem unit (m : Seal Unit) : Determined m := fun _ _ _ _ _ _ _ _ => rfl

theorem bind {m : Seal α} {f : α → Seal β} (first : Determined m)
    (second : ∀ a, Determined (f a)) : Determined (m >>= f) := by
  intro _ _ _ _ _ _ one two
  obtain ⟨a, _, step, rest⟩ := (gives_bind _ _ _ _ _).mp one
  obtain ⟨_, _, step', rest'⟩ := (gives_bind _ _ _ _ _).mp two
  obtain rfl := first _ _ _ _ _ _ step step'
  exact second a _ _ _ _ _ _ rest rest'

theorem map {m : Seal α} (first : Determined m) (f : α → β) :
    Determined (m >>= fun a => Pure.pure (f a)) := first.bind fun a => pure (f a)

theorem mapM {f : α → Seal β} (each : ∀ x, Determined (f x)) (xs : List α) :
    Determined (xs.mapM f) := by
  induction xs with
  | nil => exact pure []
  | cons x xs ih =>
    rw [List.mapM_cons]
    exact (each x).bind fun y => ih.map (y :: ·)

theorem ofHandler (r : Except HandlerError α) : Determined (ofHandler r) := by
  intro _ _ _ _ _ _ first second
  rw [gives_ofHandler] at first second
  exact Except.ok.inj (first.1.symm.trans second.1)

end Determined

end Seal

open Seal

namespace Sealing

variable {g : Sealing}

theorem indexValue_determined (v : Value Nat) : Determined (g.indexValue v) := by
  unfold indexValue
  split
  · exact (Determined.unit _).map _
  · exact (Determined.ofHandler _).map _
  · exact .pure v
  · exact .pure v

theorem indexAt_determined (x : Place × Value Nat) : Determined (g.indexAt x) :=
  (indexValue_determined x.2).map _

theorem sealPredicate_determined (scope : List String) (e : Expr Nat) :
    Determined (g.sealPredicate scope e) := by
  rw [sealPredicate_eq, map_eq_pure_bind]
  exact (Determined.mapM indexAt_determined _).map _

theorem sealFilter_determined (scope : List String) (filter : Option (Expr Nat)) :
    Determined (g.sealFilter scope filter) := by
  unfold sealFilter
  split
  · exact .pure none
  · split
    · exact (sealPredicate_determined scope _).map _
    · exact .pure _

theorem sealItem_determined (scope : List String) (item : SelectItem Nat) :
    Determined (g.sealItem scope item) := by
  unfold sealItem
  split
  · exact (Determined.unit _).map _
  · exact .pure item

theorem sealProjection_determined (scope : List String) (items : List (SelectItem Nat)) :
    Determined (g.sealProjection scope items) := by
  unfold sealProjection
  split
  · exact .mapM (sealItem_determined scope) items
  · exact .pure items

end Sealing

section Unique

variable {projects : List (FromItem Nat) → List (SelectItem Nat) → List (SelectItem Nat) → Prop}
  {filters : List (FromItem Nat) → Option (Expr Nat) → Option (Expr Nat) → Prop}

/-- What a projection and a filter are related to is one thing. -/
structure SelectsUnique (projects :
      List (FromItem Nat) → List (SelectItem Nat) → List (SelectItem Nat) → Prop)
    (filters : List (FromItem Nat) → Option (Expr Nat) → Option (Expr Nat) → Prop) : Prop where
  projection : ∀ {sources items items₁ items₂}, projects sources items items₁ →
    projects sources items items₂ → items₁ = items₂
  filter : ∀ {sources filter filter₁ filter₂}, filters sources filter filter₁ →
    filters sources filter filter₂ → filter₁ = filter₂

mutual

theorem Selectwise.unique (unique : SelectsUnique projects filters) :
    ∀ {q q₁ q₂ : Query Nat}, Selectwise projects filters q q₁ →
      Selectwise projects filters q q₂ → q₁ = q₂
  | _, _, _, .query ctes body, .query ctes' body' => by
    rw [ctes.unique unique ctes', body.unique unique body']

theorem CtesSelectwise.unique (unique : SelectsUnique projects filters) :
    ∀ {ctes ctes₁ ctes₂ : List (Cte Nat)}, CtesSelectwise projects filters ctes ctes₁ →
      CtesSelectwise projects filters ctes ctes₂ → ctes₁ = ctes₂
  | _, _, _, .nil, .nil => rfl
  | _, _, _, .cons query ctes, .cons query' ctes' => by
    rw [query.unique unique query', ctes.unique unique ctes']

theorem BodySelectwise.unique (unique : SelectsUnique projects filters) :
    ∀ {body body₁ body₂ : SetExpr Nat}, BodySelectwise projects filters body body₁ →
      BodySelectwise projects filters body body₂ → body₁ = body₂
  | _, _, _, .select projection sources filter, .select projection' sources' filter' => by
    rw [unique.projection projection projection', sources.unique unique sources',
      unique.filter filter filter']
  | _, _, _, .query query, .query query' => by rw [query.unique unique query']
  | _, _, _, .operation left right, .operation left' right' => by
    rw [left.unique unique left', right.unique unique right']
  | _, _, _, .kept _, .kept _ => rfl

theorem SourcesSelectwise.unique (unique : SelectsUnique projects filters) :
    ∀ {items items₁ items₂ : List (FromItem Nat)}, SourcesSelectwise projects filters items items₁ →
      SourcesSelectwise projects filters items items₂ → items₁ = items₂
  | _, _, _, .nil, .nil => rfl
  | _, _, _, .cons relation joins items, .cons relation' joins' items' => by
    rw [relation.unique unique relation', joins.unique unique joins', items.unique unique items']

theorem JoinsSelectwise.unique (unique : SelectsUnique projects filters) :
    ∀ {joins joins₁ joins₂ : List (Join Nat)}, JoinsSelectwise projects filters joins joins₁ →
      JoinsSelectwise projects filters joins joins₂ → joins₁ = joins₂
  | _, _, _, .nil, .nil => rfl
  | _, _, _, .cons relation joins, .cons relation' joins' => by
    rw [relation.unique unique relation', joins.unique unique joins']

theorem FactorSelectwise.unique (unique : SelectsUnique projects filters) :
    ∀ {factor factor₁ factor₂ : TableFactor Nat}, FactorSelectwise projects filters factor factor₁ →
      FactorSelectwise projects filters factor factor₂ → factor₁ = factor₂
  | _, _, _, .table, .table => rfl
  | _, _, _, .derived query, .derived query' => by rw [query.unique unique query']
  | _, _, _, .nested relation joins, .nested relation' joins' => by
    rw [relation.unique unique relation', joins.unique unique joins']

end

end Unique

namespace Sealing

variable {g : Sealing}

/-- What some run makes of a projection. -/
def ProjectsTo (g : Sealing) (sources : List (FromItem Nat))
    (items items' : List (SelectItem Nat)) : Prop :=
  ∃ d d', (g.sealProjection (scopeOf sources) items).Gives d items' d'

/-- What some run makes of a filter. -/
def FiltersTo (g : Sealing) (sources : List (FromItem Nat)) (filter filter' : Option (Expr Nat)) :
    Prop :=
  ∃ d d', (g.sealFilter (scopeOf sources) filter).Gives d filter' d'

theorem sealSelects_unique : SelectsUnique g.ProjectsTo g.FiltersTo where
  projection := fun ⟨_, _, first⟩ ⟨_, _, second⟩ =>
    sealProjection_determined _ _ _ _ _ _ _ _ first second
  filter := fun ⟨_, _, first⟩ ⟨_, _, second⟩ =>
    sealFilter_determined _ _ _ _ _ _ _ _ first second

theorem sealSelects_runs : g.SelectRuns g.ProjectsTo g.FiltersTo where
  projection := fun run => ⟨_, _, run⟩
  filter := fun run => ⟨_, _, run⟩

/-- Inside of a query a select is sealed to what any run makes of it on its own. -/
theorem sealQuery_pairs {q q' : Query Nat} {d d' : Draft} (run : (g.sealQuery q).Gives d q' d') :
    List.Forall₂ (fun s s' => ∀ {d₁ d₁' : Draft} {q₁ : Query Nat},
      (g.sealQuery s.alone).Gives d₁ q₁ d₁' → q₁ = s'.alone) q.selects q'.selects := by
  refine (sealQuery_runs sealSelects_runs q run).pairs.imp fun s s' paired => ?_
  intro d₁ d₁' q₁ own
  have within : Selectwise g.ProjectsTo g.FiltersTo s.alone s'.alone := .query .nil paired
  exact (sealQuery_runs sealSelects_runs _ own).unique sealSelects_unique within

end Sealing

end SealedColumns
