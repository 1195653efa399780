import Mathlib.Data.List.Flatten
import SealedColumns.Proofs.Emission
import SealedColumns.Proofs.Requests

/-!
What becomes of the values that the placeholders of a query are bound to. The index of its text
takes the place of a value that is compared, and all other values stay. Which of the placeholders of
a select are compared is a matter of that select: the rest of the query has other ones.
-/
namespace SealedColumns

open Sql

/-- The value that the placeholder with an ordinal is bound to. -/
def Parameters.boundValue? (p : Parameters) (n : Nat) : Option Json :=
  (p.slots.find? (Anchor.designates (.origin n))).map fun slot => p.valueOf slot.mapping

theorem Parameters.Splits.boundValue? {p : Parameters} {n : Nat} {before behind : List Slot}
    {slot : Slot} (split : p.Splits n before slot behind) :
    p.boundValue? n = some (p.valueOf slot.mapping) := by
  have found : p.slots.find? (Anchor.designates (.origin n)) = some slot := by
    refine List.find?_eq_some_iff_append.mpr ⟨(designates_origin n slot).mpr split.origin, before,
      behind, split.slots, fun s earlier => ?_⟩
    rw [Bool.not_eq_true', Bool.eq_false_iff]
    exact fun here => split.first s earlier ((designates_origin n s).mp here)
  rw [Parameters.boundValue?, found, Option.map_some]

namespace Sealing

/-- What is bound where these placeholders are compared. -/
def comparedValue (handler : Handler) (compared : List Nat) (n : Nat) (value : Json) : Json :=
  if n ∈ compared then
    match value.plain? with
    | some (some text) =>
      match handler.index text with
      | .ok index => .string index
      | .error _ => value
    | _ => value
  else value

section Values

variable {g : Sealing} {bound : BoundStatement} {supply : Supply} {d : Draft} {ns : List Nat}
  {n : Nat} {m : ParameterMapping}

theorem Part.compared {slots : List Slot} (stands : Part g bound supply (comparing ns) d n m slots)
    (fresh : supply.Fresh bound)
    (reads : d.parameters.valueOf m = (Parameters.ofBound bound).valueOf m) :
    ∃ slot, slots = [slot] ∧ slot.origin = some n ∧ d.parameters.valueOf slot.mapping =
      comparedValue g.handler ns n ((Parameters.ofBound bound).valueOf m) := by
  have known : ∀ {n}, .compare n ∈ comparing ns ↔ n ∈ ns := by simp [mem_comparing]
  cases stands with
  | kept uncompared _ =>
    refine ⟨_, rfl, rfl, reads.trans ?_⟩
    rw [comparedValue, if_neg fun listed => uncompared (known.mpr listed)]
  | null compared plain =>
    refine ⟨_, rfl, rfl, reads.trans ?_⟩
    rw [comparedValue, if_pos (known.mp compared), plain]
  | indexed compared plain indexed holds =>
    refine ⟨_, rfl, rfl, (holds.reads fresh "").trans ?_⟩
    rw [comparedValue, if_pos (known.mp compared), plain]
    simp only [indexed]
  | pair written =>
    obtain ⟨_, _, same⟩ := mem_comparing.mp written
    cases same

variable {part : Nat → List Slot} (ledger : Ledger g bound supply (comparing ns) d part)
  (fresh : supply.Fresh bound) (known : bound.mappings[n]? = some m)

include ledger fresh known

/-- The value of a placeholder behind a pass that only compares. -/
theorem Ledger.boundValue? : d.parameters.boundValue? n =
    some (comparedValue g.handler ns n ((Parameters.ofBound bound).valueOf m)) := by
  obtain ⟨slot, single, bears, value⟩ := (ledger.parts n m known).compared fresh
    (ledger.reads fresh (List.mem_of_getElem? known))
  obtain ⟨before, behind, split⟩ := ledger.splits_single known single bears
  rw [split.boundValue?, value]

theorem Ledger.outputValue {tree : Statement Nat} (aligned : tree.origins = d.parameters.origins)
    (sql : String) : outputValue tree (d.parameters.toBound sql) n =
      some (comparedValue g.handler ns n ((Parameters.ofBound bound).valueOf m)) := by
  obtain ⟨slot, single, bears, value⟩ := (ledger.parts n m known).compared fresh
    (ledger.reads fresh (List.mem_of_getElem? known))
  rw [ledger.outputValue_single aligned known single bears, ← value]
  rfl

end Values

section Shares

variable (g : Sealing) (n : Nat) {s : Select Nat}

mutual

/-- Apart from a select that it reaches, a query compares no more placeholders than it has there. -/
theorem query_shares : ∀ q : Query Nat, s ∈ q.selects →
    (g.queryCompared q).count n + (originsOf s.visits).count (some n) ≤
      (originsOf q.visits).count (some n) + (g.selectCompared s).count n
  | ⟨_, ctes, body, _⟩, member => by
    have first := g.count_ctesCompared n ctes
    have second := g.count_bodyCompared n body
    simp only [queryCompared, Query.visits, originsOf_append, List.count_append]
    rcases List.mem_append.mp member with left | right
    · have share := ctes_share ctes left
      omega
    · have share := body_shares body right
      omega

theorem ctes_share : ∀ ctes : List (Cte Nat), s ∈ ctesSelects ctes →
    (g.ctesCompared ctes).count n + (originsOf s.visits).count (some n) ≤
      (originsOf (visitsCtes ctes)).count (some n) + (g.selectCompared s).count n
  | [], member => nomatch member
  | ⟨_, _, _, query⟩ :: ctes, member => by
    have first := g.count_queryCompared n query
    have rest := g.count_ctesCompared n ctes
    simp only [ctesCompared, visitsCtes, Cte.visits, originsOf_append, List.count_append]
    rcases List.mem_append.mp member with left | right
    · have share := query_shares query left
      omega
    · have share := ctes_share ctes right
      omega

theorem body_shares : ∀ body : SetExpr Nat, s ∈ body.selects →
    (g.bodyCompared body).count n + (originsOf s.visits).count (some n) ≤
      (originsOf body.visits).count (some n) + (g.selectCompared s).count n
  | .select ⟨order, quantifiers, projection, sources, filter, clauses⟩, member => by
    rcases List.mem_append.mp member with left | here
    · have share := sources_share sources left
      have inner := g.count_filterCompared n (scopeOf sources) filter
      simp only [bodyCompared, selectCompared, SetExpr.visits, Select.visits, originsOf_append,
        List.count_append]
      omega
    · obtain rfl := List.mem_singleton.mp here
      simp only [bodyCompared, SetExpr.visits]
      omega
  | .query q, member => by
    simpa only [bodyCompared, SetExpr.visits] using query_shares q member
  | .operation _ _ l r, member => by
    have first := g.count_bodyCompared n l
    have second := g.count_bodyCompared n r
    simp only [bodyCompared, SetExpr.visits, originsOf_append, List.count_append]
    rcases List.mem_append.mp member with left | right
    · have share := body_shares l left
      omega
    · have share := body_shares r right
      omega
  | .values _ _, member | .insert _, member | .update _, member | .delete _, member =>
    nomatch member

theorem sources_share : ∀ items : List (FromItem Nat), s ∈ sourcesSelects items →
    (g.sourcesCompared items).count n + (originsOf s.visits).count (some n) ≤
      (originsOf (visitsSources items)).count (some n) + (g.selectCompared s).count n
  | [], member => nomatch member
  | ⟨relation, joins⟩ :: items, member => by
    have first := g.count_factorCompared n relation
    have second := g.count_joinsCompared n joins
    have rest := g.count_sourcesCompared n items
    simp only [sourcesCompared, sourceCompared, visitsSources, FromItem.visits, originsOf_append,
      List.count_append]
    rcases List.mem_append.mp member with inside | right
    · rcases List.mem_append.mp inside with left | middle
      · have share := factor_shares relation left
        omega
      · have share := joins_share joins middle
        omega
    · have share := sources_share items right
      omega

theorem joins_share : ∀ joins : List (Join Nat), s ∈ joinsSelects joins →
    (g.joinsCompared joins).count n + (originsOf s.visits).count (some n) ≤
      (originsOf (visitsJoins joins)).count (some n) + (g.selectCompared s).count n
  | [], member => nomatch member
  | ⟨_, _, relation, condition, _⟩ :: joins, member => by
    have first := g.count_factorCompared n relation
    have rest := g.count_joinsCompared n joins
    simp only [joinsCompared, visitsJoins, Join.visits, originsOf_append, List.count_append]
    rcases List.mem_append.mp member with left | right
    · have share := factor_shares relation left
      omega
    · have share := joins_share joins right
      omega

theorem factor_shares : ∀ factor : TableFactor Nat, s ∈ factor.selects →
    (g.factorCompared factor).count n + (originsOf s.visits).count (some n) ≤
      (originsOf factor.visits).count (some n) + (g.selectCompared s).count n
  | .table _ _ _ _, member => nomatch member
  | .derived _ query _, member => by
    simpa only [factorCompared, TableFactor.visits] using query_shares query member
  | .nested ⟨relation, joins⟩ _, member => by
    have first := g.count_factorCompared n relation
    have second := g.count_joinsCompared n joins
    simp only [factorCompared, sourceCompared, TableFactor.visits, FromItem.visits,
      originsOf_append, List.count_append]
    rcases List.mem_append.mp member with left | right
    · have share := factor_shares relation left
      omega
    · have share := joins_share joins right
      omega

end

variable {q : Query Nat} (member : s ∈ q.selects)

include member

theorem queryCompared_sublist : (g.queryCompared s.alone).Sublist (g.queryCompared q) := by
  rw [queryCompared_eq, queryCompared_eq]
  exact (q.sourcesFirst.sublist member).flatMap _

include g in
variable {n} in
theorem mem_origins_of_select (own : some n ∈ originsOf s.visits) :
    some n ∈ originsOf q.visits := by
  have share := query_shares g n q member
  have inner : (g.selectCompared s).count n ≤ (g.queryCompared q).count n :=
    (g.queryCompared_sublist member).count_le n
  have listed := List.count_pos_iff.mpr own
  exact List.count_pos_iff.mp (by omega)

variable {n} in
/-- Of the placeholders of a select the query compares those that the select compares. -/
theorem mem_queryCompared_alone (once : Once (originsOf q.visits))
    (own : some n ∈ originsOf s.visits) :
    n ∈ g.queryCompared q ↔ n ∈ g.queryCompared s.alone := by
  have alone : g.queryCompared s.alone = g.selectCompared s := rfl
  refine ⟨fun compared => ?_, fun compared => (g.queryCompared_sublist member).subset compared⟩
  have share := query_shares g n q member
  have single := once n
  have here := List.count_pos_iff.mpr compared
  have listed := List.count_pos_iff.mpr own
  rw [alone]
  exact List.count_pos_iff.mp (by omega)

end Shares

end Sealing

end SealedColumns
