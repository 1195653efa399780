import SealedColumns.Proofs.Recording
import SealedColumns.Proofs.Selects

/-!
The selects that a pass over a query reaches, as one list: through CTEs, set operations, derived
tables and nested joins. Each stands behind those of its own FROM clause, in the order in which
filters are sealed.
-/
namespace SealedColumns

open Sql

namespace Sql

variable {ν : Type}

mutual

def Query.selects : Query ν → List (Select ν)
  | ⟨_, ctes, body, _⟩ => ctesSelects ctes ++ body.selects

def ctesSelects : List (Cte ν) → List (Select ν)
  | [] => []
  | ⟨_, _, _, query⟩ :: ctes => query.selects ++ ctesSelects ctes

def SetExpr.selects : SetExpr ν → List (Select ν)
  | .select ⟨order, quantifiers, projection, sources, filter, clauses⟩ =>
    sourcesSelects sources ++ [⟨order, quantifiers, projection, sources, filter, clauses⟩]
  | .query q => q.selects
  | .operation _ _ l r => l.selects ++ r.selects
  | _ => []

def sourcesSelects : List (FromItem ν) → List (Select ν)
  | [] => []
  | ⟨relation, joins⟩ :: items =>
    relation.selects ++ joinsSelects joins ++ sourcesSelects items

def joinsSelects : List (Join ν) → List (Select ν)
  | [] => []
  | ⟨_, _, relation, _, _⟩ :: joins => relation.selects ++ joinsSelects joins

def TableFactor.selects : TableFactor ν → List (Select ν)
  | .table _ _ _ _ => []
  | .derived _ query _ => query.selects
  | .nested ⟨relation, joins⟩ _ => relation.selects ++ joinsSelects joins

end

/-- The query that is this select alone. -/
def Select.alone (s : Select ν) : Query ν := ⟨false, [], .select s, []⟩

theorem Select.selects_alone (s : Select ν) :
    s.alone.selects = sourcesSelects s.sources ++ [s] := by
  cases s
  rfl

/-- The lists of selects in which each one stands right behind those of its own FROM clause. -/
inductive SourcesFirst : List (Select ν) → Prop where
  | nil : SourcesFirst []
  | append {ss ss' : List (Select ν)} : SourcesFirst ss → SourcesFirst ss' →
      SourcesFirst (ss ++ ss')
  | select {s : Select ν} : SourcesFirst (sourcesSelects s.sources) → SourcesFirst s.alone.selects

mutual

theorem Query.sourcesFirst : ∀ q : Query ν, SourcesFirst q.selects
  | ⟨_, ctes, body, _⟩ => (ctes_sourcesFirst ctes).append body.sourcesFirst

theorem ctes_sourcesFirst : ∀ ctes : List (Cte ν), SourcesFirst (ctesSelects ctes)
  | [] => .nil
  | ⟨_, _, _, query⟩ :: ctes => query.sourcesFirst.append (ctes_sourcesFirst ctes)

theorem SetExpr.sourcesFirst : ∀ body : SetExpr ν, SourcesFirst body.selects
  | .select ⟨order, quantifiers, projection, sources, filter, clauses⟩ =>
    .select (s := ⟨order, quantifiers, projection, sources, filter, clauses⟩)
      (items_sourcesFirst sources)
  | .query q => q.sourcesFirst
  | .operation _ _ l r => l.sourcesFirst.append r.sourcesFirst
  | .values _ _ | .insert _ | .update _ | .delete _ => .nil

theorem items_sourcesFirst : ∀ items : List (FromItem ν), SourcesFirst (sourcesSelects items)
  | [] => .nil
  | ⟨relation, joins⟩ :: items =>
    (relation.sourcesFirst.append (joins_sourcesFirst joins)).append
      (items_sourcesFirst items)

theorem joins_sourcesFirst : ∀ joins : List (Join ν), SourcesFirst (joinsSelects joins)
  | [] => .nil
  | ⟨_, _, relation, _, _⟩ :: joins => relation.sourcesFirst.append (joins_sourcesFirst joins)

theorem TableFactor.sourcesFirst : ∀ factor : TableFactor ν, SourcesFirst factor.selects
  | .table _ _ _ _ => .nil
  | .derived _ query _ => query.sourcesFirst
  | .nested ⟨relation, joins⟩ _ => relation.sourcesFirst.append (joins_sourcesFirst joins)

end

namespace SourcesFirst

variable {ss : List (Select ν)}

/-- A select is reached together with all that it reaches on its own. -/
theorem sublist (first : SourcesFirst ss) {s : Select ν} (member : s ∈ ss) :
    s.alone.selects.Sublist ss := by
  induction first with
  | nil => cases member
  | append _ _ ih ih' =>
    rcases List.mem_append.mp member with left | right
    · exact (ih left).trans (List.sublist_append_left _ _)
    · exact (ih' right).trans (List.sublist_append_right _ _)
  | @select outer _ ih =>
    rw [Select.selects_alone outer] at member ⊢
    rcases List.mem_append.mp member with inner | here
    · exact (ih inner).trans (List.sublist_append_left _ _)
    · obtain rfl := List.mem_singleton.mp here
      exact s.selects_alone ▸ .refl _

/-- What is found first in a list is found first by the first select that finds it on its own. -/
theorem findSome? {β : Type} (first : SourcesFirst ss) (f : Select ν → Option β) :
    ss.findSome? f = ss.findSome? fun s => s.alone.selects.findSome? f := by
  induction first with
  | nil => rfl
  | append _ _ ih ih' => rw [List.findSome?_append, List.findSome?_append, ih, ih']
  | @select s _ ih =>
    have single : ∀ h : Select ν → Option β, [s].findSome? h = h s := fun h => by
      cases found : h s <;> simp [found]
    rw [s.selects_alone, List.findSome?_append, List.findSome?_append, ← ih, single, single,
      s.selects_alone, List.findSome?_append, single, ← Option.or_assoc, Option.or_self]

end SourcesFirst

end Sql

section Selectwise

variable (projects : List (FromItem Nat) → List (SelectItem Nat) → List (SelectItem Nat) → Prop)
  (filters : List (FromItem Nat) → Option (Expr Nat) → Option (Expr Nat) → Prop)

structure SelectRelated (s s' : Select Nat) : Prop where
  projection : projects s.sources s.projection s'.projection
  filter : filters s.sources s.filter s'.filter

/-- Two selects that differ only as selects do here, those of their FROM clauses included. -/
def SelectPaired (s s' : Select Nat) : Prop :=
  BodySelectwise projects filters (.select s) (.select s')

variable {projects filters}

mutual

/-- Of two queries that agree select by select, the selects pair off. -/
theorem Selectwise.pairs : ∀ {q q' : Query Nat}, Selectwise projects filters q q' →
    List.Forall₂ (SelectPaired projects filters) q.selects q'.selects
  | _, _, .query ctes body => List.rel_append ctes.pairs body.pairs

theorem CtesSelectwise.pairs : ∀ {ctes ctes' : List (Cte Nat)},
    CtesSelectwise projects filters ctes ctes' →
      List.Forall₂ (SelectPaired projects filters) (ctesSelects ctes) (ctesSelects ctes')
  | _, _, .nil => .nil
  | _, _, .cons query ctes => List.rel_append query.pairs ctes.pairs

theorem BodySelectwise.pairs : ∀ {body body' : SetExpr Nat},
    BodySelectwise projects filters body body' →
      List.Forall₂ (SelectPaired projects filters) body.selects body'.selects
  | _, _, .select projection sources filter =>
    List.rel_append sources.pairs (.cons (.select projection sources filter) .nil)
  | _, _, .query query => query.pairs
  | _, _, .operation left right => List.rel_append left.pairs right.pairs
  | body, _, .kept closed => by
    have none : body.selects = [] := by cases body <;> first | rfl | cases closed
    rw [none]
    exact .nil

theorem SourcesSelectwise.pairs : ∀ {items items' : List (FromItem Nat)},
    SourcesSelectwise projects filters items items' →
      List.Forall₂ (SelectPaired projects filters) (sourcesSelects items) (sourcesSelects items')
  | _, _, .nil => .nil
  | _, _, .cons relation joins items =>
    List.rel_append (List.rel_append relation.pairs joins.pairs) items.pairs

theorem JoinsSelectwise.pairs : ∀ {joins joins' : List (Join Nat)},
    JoinsSelectwise projects filters joins joins' →
      List.Forall₂ (SelectPaired projects filters) (joinsSelects joins) (joinsSelects joins')
  | _, _, .nil => .nil
  | _, _, .cons relation joins => List.rel_append relation.pairs joins.pairs

theorem FactorSelectwise.pairs : ∀ {factor factor' : TableFactor Nat},
    FactorSelectwise projects filters factor factor' →
      List.Forall₂ (SelectPaired projects filters) factor.selects factor'.selects
  | _, _, .table => .nil
  | _, _, .derived query => query.pairs
  | _, _, .nested relation joins => List.rel_append relation.pairs joins.pairs

end

theorem Selectwise.selects {q q' : Query Nat} (related : Selectwise projects filters q q') :
    List.Forall₂ (SelectRelated projects filters) q.selects q'.selects :=
  related.pairs.imp fun _ _ paired => ⟨paired.of_select.1, paired.of_select.2⟩

end Selectwise

namespace Sealing

variable (g : Sealing) (label : Ident)

/-- The output name of an item that one of these selects redirects. -/
def Redirects (selects : List (Select Nat)) : Prop :=
  ∃ s ∈ selects, ∃ item ∈ s.projection, g.redirected? (scopeOf s.sources) item = some label

variable {g label}

theorem redirects_append {ss ss' : List (Select Nat)} :
    g.Redirects label (ss ++ ss') ↔ g.Redirects label ss ∨ g.Redirects label ss' := by
  simp only [Redirects, List.mem_append, or_and_right, exists_or]

theorem redirects_nil : ¬ g.Redirects label [] := fun ⟨_, member, _⟩ =>
  List.not_mem_nil member

theorem redirects_single {s : Select Nat} : g.Redirects label [s] ↔
    label ∈ s.projection.flatMap fun item => (g.redirected? (scopeOf s.sources) item).toList := by
  simp [Redirects]

mutual

theorem mem_queryLabels : ∀ q : Query Nat, label ∈ g.queryLabels q ↔ g.Redirects label q.selects
  | ⟨_, ctes, body, _⟩ => by
    rw [queryLabels, Query.selects, redirects_append, List.mem_append, mem_ctesLabels ctes,
      mem_bodyLabels body]

theorem mem_ctesLabels : ∀ ctes : List (Cte Nat),
    label ∈ g.ctesLabels ctes ↔ g.Redirects label (ctesSelects ctes)
  | [] => iff_of_false List.not_mem_nil redirects_nil
  | ⟨_, _, _, query⟩ :: ctes => by
    rw [ctesLabels, ctesSelects, redirects_append, List.mem_append, mem_queryLabels query,
      mem_ctesLabels ctes]

theorem mem_bodyLabels : ∀ body : SetExpr Nat,
    label ∈ g.bodyLabels body ↔ g.Redirects label body.selects
  | .select ⟨_, _, _, sources, _, _⟩ => by
    rw [bodyLabels, selectLabels, SetExpr.selects, redirects_append, List.mem_append,
      redirects_single, mem_sourcesLabels sources, or_comm]
  | .query q => by rw [bodyLabels, SetExpr.selects, mem_queryLabels q]
  | .operation _ _ l r => by
    rw [bodyLabels, SetExpr.selects, redirects_append, List.mem_append, mem_bodyLabels l,
      mem_bodyLabels r]
  | .values _ _ | .insert _ | .update _ | .delete _ =>
    iff_of_false List.not_mem_nil redirects_nil

theorem mem_sourcesLabels : ∀ items : List (FromItem Nat),
    label ∈ g.sourcesLabels items ↔ g.Redirects label (sourcesSelects items)
  | [] => iff_of_false List.not_mem_nil redirects_nil
  | ⟨relation, joins⟩ :: items => by
    rw [sourcesLabels, sourceLabels, sourcesSelects, redirects_append, redirects_append,
      List.mem_append, List.mem_append, mem_factorLabels relation, mem_joinsLabels joins,
      mem_sourcesLabels items]

theorem mem_joinsLabels : ∀ joins : List (Join Nat),
    label ∈ g.joinsLabels joins ↔ g.Redirects label (joinsSelects joins)
  | [] => iff_of_false List.not_mem_nil redirects_nil
  | ⟨_, _, relation, _, _⟩ :: joins => by
    rw [joinsLabels, joinsSelects, redirects_append, List.mem_append, mem_factorLabels relation,
      mem_joinsLabels joins]

theorem mem_factorLabels : ∀ factor : TableFactor Nat,
    label ∈ g.factorLabels factor ↔ g.Redirects label factor.selects
  | .table _ _ _ _ => iff_of_false List.not_mem_nil redirects_nil
  | .derived _ query _ => by rw [factorLabels, TableFactor.selects, mem_queryLabels query]
  | .nested ⟨relation, joins⟩ _ => by
    rw [factorLabels, sourceLabels, TableFactor.selects, redirects_append, List.mem_append,
      mem_factorLabels relation, mem_joinsLabels joins]

end

end Sealing

end SealedColumns
