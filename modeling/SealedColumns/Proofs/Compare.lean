import SealedColumns.Proofs.Plan
import SealedColumns.Proofs.Trace

/-!
Sealing of filters and queries is a trace of comparisons, the planned ones, and it leaves the
placeholders of the tree where they are.
-/
namespace SealedColumns

open Sql

namespace Sealing

variable {g : Sealing}

/-- What indexing keeps of an operand. -/
structure Indexed (g : Sealing) (e e' : Expr Nat) : Prop where
  origins : originsOf e'.visits = originsOf e.visits
  compared : ∀ scope, g.comparedIn scope e' = g.comparedIn scope e

theorem Indexed.refl (e : Expr Nat) : g.Indexed e e := ⟨rfl, fun _ => rfl⟩

def comparing (ns : List Nat) : List Act := ns.map .compare

theorem comparing_append (ns ms : List Nat) :
    comparing (ns ++ ms) = comparing ns ++ comparing ms := List.map_append

variable {d d' : Draft}

theorem indexValue_trace {v v' : Value Nat} (run : (g.indexValue v).Gives d v' d') :
    v'.origin? = v.origin? ∧ g.Trace (comparing v.ordinal?.toList) d d' := by
  cases v with
  | placeholder mark =>
    cases mark with
    | numbered n =>
      simp only [indexValue, Operand.ofValue?, Seal.gives_bind, Seal.gives_pure] at run
      obtain ⟨_, _, step, rfl, rfl⟩ := run
      exact ⟨rfl, .single step⟩
    | _ =>
      simp only [indexValue, Operand.ofValue?, Seal.gives_pure] at run
      obtain ⟨rfl, rfl⟩ := run
      exact ⟨rfl, .done d⟩
  | string text =>
    simp only [indexValue, Operand.ofValue?, Seal.gives_bind, gives_index, Seal.gives_pure] at run
    obtain ⟨_, _, ⟨_, rfl⟩, rfl, rfl⟩ := run
    exact ⟨rfl, .done d⟩
  | number text long =>
    simp only [indexValue, Operand.ofValue?, Seal.gives_bind, gives_index, Seal.gives_pure] at run
    obtain ⟨_, _, ⟨_, rfl⟩, rfl, rfl⟩ := run
    exact ⟨rfl, .done d⟩
  | _ =>
    simp only [indexValue, Operand.ofValue?, Seal.gives_pure] at run
    obtain ⟨rfl, rfl⟩ := run
    exact ⟨rfl, .done d⟩

mutual

theorem indexOperand_trace : ∀ (e : Expr Nat) {d d' : Draft} {e' : Reaching e},
    (g.indexOperand e).Gives d e' d' →
      g.Indexed e e'.val ∧ g.Trace (comparing e.operands) d d'
  | .value v, d, d', e', run => by
    simp only [indexOperand, Seal.gives_bind, Seal.gives_pure] at run
    obtain ⟨v', _, first, rfl, rfl⟩ := run
    obtain ⟨origin, trace⟩ := indexValue_trace first
    refine ⟨⟨?_, fun _ => by simp only [comparedIn]⟩, trace⟩
    simp only [Expr.visits, originsOf_value, origin]
  | .nested e, d, d', e', run => by
    simp only [indexOperand, Seal.gives_bind, Seal.gives_pure] at run
    obtain ⟨⟨inner, _⟩, _, first, rfl, rfl⟩ := run
    obtain ⟨same, trace⟩ := indexOperand_trace e first
    refine ⟨⟨?_, ?_⟩, by simpa only [Expr.operands] using trace⟩
    · simpa only [Expr.visits] using same.origins
    · simpa only [comparedIn] using same.compared
  | .call name quantifier args clauses tail, d, d', e', run => by
    simp only [indexOperand, Seal.gives_bind, Seal.gives_pure] at run
    obtain ⟨⟨inner, _⟩, _, first, rfl, rfl⟩ := run
    obtain ⟨origins, compared, trace⟩ := indexArguments_trace args first
    refine ⟨⟨?_, ?_⟩, by simpa only [Expr.operands] using trace⟩
    · simp only [Expr.visits, originsOf_append, origins]
    · simpa only [comparedIn] using compared
  | .argument name arrow e, d, d', e', run => by
    simp only [indexOperand, Seal.gives_bind, Seal.gives_pure] at run
    obtain ⟨⟨inner, _⟩, _, first, rfl, rfl⟩ := run
    obtain ⟨same, trace⟩ := indexOperand_trace e first
    refine ⟨⟨?_, ?_⟩, by simpa only [Expr.operands] using trace⟩
    · simpa only [Expr.visits] using same.origins
    · simpa only [comparedIn] using same.compared
  | .column _ _, _, _, _, run | .unary _ _, _, _, _, run | .isNull _ _, _, _, _, run
  | .binary _ _ _, _, _, _, run | .pattern _ _ _ _ _, _, _, _, run | .inList _ _ _, _, _, _, run
  | .inQuery _ _ _, _, _, _, run | .star _, _, _, _, run | .existence _ _, _, _, _, run
  | .subquery _, _, _, _, run | .framed _ _, _, _, _, run => by
    simp only [indexOperand, Seal.gives_pure] at run
    obtain ⟨rfl, rfl⟩ := run
    exact ⟨.refl _, by simpa only [Expr.operands] using .done _⟩

theorem indexArguments_trace : ∀ (es : List (Expr Nat)) {d d' : Draft} {es' : ReachingAll es},
    (g.indexArguments es).Gives d es' d' →
      originsOf (visitsAll es'.val) = originsOf (visitsAll es) ∧
        (∀ scope, g.comparedAll scope es'.val = g.comparedAll scope es) ∧
          g.Trace (comparing (operandsAll es)) d d'
  | [], d, d', es', run => by
    simp only [indexArguments, Seal.gives_pure] at run
    obtain ⟨rfl, rfl⟩ := run
    exact ⟨rfl, fun _ => rfl, .done d⟩
  | e :: es, d, d', es', run => by
    simp only [indexArguments, Seal.gives_bind, Seal.gives_pure] at run
    obtain ⟨⟨head, _⟩, _, first, ⟨tail, _⟩, _, second, rfl, rfl⟩ := run
    obtain ⟨same, trace⟩ := indexOperand_trace e first
    obtain ⟨origins, compared, rest⟩ := indexArguments_trace es second
    refine ⟨?_, ?_, ?_⟩
    · simp only [visitsAll, originsOf_append, same.origins, origins]
    · intro scope
      simp only [comparedAll, same.compared, compared]
    · rw [operandsAll, comparing_append]
      exact trace.append rest

end

theorem indexOperandIf_trace {indexed : Bool} {e : Expr Nat} {e' : Reaching e}
    (run : (g.indexOperandIf indexed e).Gives d e' d') :
    g.Indexed e e'.val ∧ g.Trace (comparing (operandsIf indexed e)) d d' := by
  cases indexed with
  | true => exact indexOperand_trace e run
  | false =>
    simp only [indexOperandIf, Bool.false_eq_true, if_false, Seal.gives_pure] at run
    obtain ⟨rfl, rfl⟩ := run
    exact ⟨.refl e, .done d⟩

theorem indexItems_trace {es es' : List (Expr Nat)} (run : (g.indexItems es).Gives d es' d') :
    originsOf (visitsAll es') = originsOf (visitsAll es) ∧
      g.Trace (comparing (operandsAll es)) d d' := by
  induction es generalizing es' d with
  | nil =>
    simp only [indexItems, Seal.gives_pure] at run
    obtain ⟨rfl, rfl⟩ := run
    exact ⟨rfl, .done d⟩
  | cons e es ih =>
    simp only [indexItems, Seal.gives_bind, Seal.gives_pure] at run
    obtain ⟨head, _, first, tail, _, second, rfl, rfl⟩ := run
    obtain ⟨same, trace⟩ := indexOperand_trace e first
    obtain ⟨origins, rest⟩ := ih second
    refine ⟨by simp only [visitsAll, originsOf_append, same.origins, origins], ?_⟩
    rw [operandsAll, comparing_append]
    exact trace.append rest

theorem visits_renameColumn (e : Expr Nat) (text : String) :
    (e.renameColumn text).visits = e.visits := by
  cases e <;> rfl

theorem visits_readIndex (scope : List String) (e : Expr Nat) :
    (g.readIndex scope e).visits = e.visits := by
  unfold readIndex
  split
  · exact visits_renameColumn e _
  · rfl

-- The recursion is the one of sealing: on the reach, since both sides are indexed before it.
mutual

theorem sealPredicate_trace (scope : List String) : ∀ (e : Expr Nat) {d d' : Draft} {e' : Expr Nat},
    (g.sealPredicate scope e).Gives d e' d' →
      originsOf e'.visits = originsOf e.visits ∧ g.Trace (comparing (g.comparedIn scope e)) d d'
  | .nested e, d, d', e', run => by
    simp only [sealPredicate, Seal.gives_bind, Seal.gives_pure] at run
    obtain ⟨inner, _, first, rfl, rfl⟩ := run
    simpa only [Expr.visits, comparedIn] using sealPredicate_trace scope e first
  | .unary op e, d, d', e', run => by
    simp only [sealPredicate, Seal.gives_bind, Seal.gives_pure] at run
    obtain ⟨inner, _, first, rfl, rfl⟩ := run
    simpa only [Expr.visits, comparedIn] using sealPredicate_trace scope e first
  | .isNull negated e, d, d', e', run => by
    simp only [sealPredicate, Seal.gives_bind, Seal.gives_pure] at run
    obtain ⟨inner, _, first, rfl, rfl⟩ := run
    simpa only [Expr.visits, comparedIn] using sealPredicate_trace scope e first
  | .binary l op r, d, d', e', run => by
    simp only [sealPredicate, Seal.gives_bind, Seal.gives_pure] at run
    obtain ⟨⟨r', reachR⟩, _, indexR, ⟨l', reachL⟩, _, indexL, l'', _, first, r'', _, second, rfl,
      rfl⟩ := run
    obtain ⟨sameR, traceR⟩ := indexOperandIf_trace indexR
    obtain ⟨sameL, traceL⟩ := indexOperandIf_trace indexL
    obtain ⟨originsL, rest⟩ := sealPredicate_trace scope l' first
    obtain ⟨originsR, last⟩ := sealPredicate_trace scope r' second
    simp only at sameL sameR
    -- What is compared inside of a side is planned on the side as it was before it was indexed.
    rw [sameL.compared] at rest
    rw [sameR.compared] at last
    refine ⟨?_, ?_⟩
    · simp only [Expr.visits, originsOf_append, originsL, originsR, sameL.origins, sameR.origins]
    · simp only [comparedIn, comparing_append]
      exact ((traceR.append traceL).append rest).append last
  | .pattern kind negated e p escape, d, d', e', run => by
    simp only [sealPredicate, Seal.gives_bind, Seal.gives_pure] at run
    obtain ⟨⟨p', _⟩, _, index, e'', _, first, rfl, rfl⟩ := run
    obtain ⟨same, trace⟩ := indexOperandIf_trace index
    obtain ⟨origins, rest⟩ := sealPredicate_trace scope e first
    refine ⟨by simp only [Expr.visits, originsOf_append, origins, same.origins], ?_⟩
    simp only [comparedIn, comparing_append]
    exact trace.append rest
  | .inList negated e items, d, d', e', run => by
    cases sensitive : g.isSensitive scope e with
    | true =>
      simp only [sealPredicate, sensitive, if_true, Seal.gives_bind, Seal.gives_pure] at run
      obtain ⟨items', _, index, e'', _, first, rfl, rfl⟩ := run
      obtain ⟨same, trace⟩ := indexItems_trace index
      obtain ⟨origins, rest⟩ := sealPredicate_trace scope e first
      refine ⟨by simp only [Expr.visits, originsOf_append, origins, same], ?_⟩
      simp only [comparedIn, sensitive, if_true, comparing_append]
      exact trace.append rest
    | false =>
      simp only [sealPredicate, sensitive, Bool.false_eq_true, if_false, Seal.gives_bind,
        Seal.gives_pure] at run
      obtain ⟨_, _, ⟨rfl, rfl⟩, e'', _, first, rfl, rfl⟩ := run
      obtain ⟨origins, rest⟩ := sealPredicate_trace scope e first
      refine ⟨by simp only [Expr.visits, originsOf_append, origins], ?_⟩
      simpa only [comparedIn, sensitive, Bool.false_eq_true, if_false, List.nil_append] using rest
  | .inQuery negated e q, d, d', e', run => by
    simp only [sealPredicate, Seal.gives_bind, Seal.gives_pure] at run
    obtain ⟨inner, _, first, rfl, rfl⟩ := run
    obtain ⟨origins, trace⟩ := sealPredicate_trace scope e first
    refine ⟨by simp only [Expr.visits, originsOf_append, origins], ?_⟩
    simpa only [comparedIn] using trace
  | .call name quantifier args clauses tail, d, d', e', run => by
    simp only [sealPredicate, Seal.gives_bind, Seal.gives_pure] at run
    obtain ⟨inner, _, first, rfl, rfl⟩ := run
    obtain ⟨origins, trace⟩ := sealArguments_trace scope args first
    refine ⟨by simp only [Expr.visits, originsOf_append, origins], ?_⟩
    simpa only [comparedIn] using trace
  | .argument name arrow e, d, d', e', run => by
    simp only [sealPredicate, Seal.gives_bind, Seal.gives_pure] at run
    obtain ⟨inner, _, first, rfl, rfl⟩ := run
    simpa only [Expr.visits, comparedIn] using sealPredicate_trace scope e first
  | .column qualifier name, d, d', e', run => by
    simp only [sealPredicate, Seal.gives_pure] at run
    obtain ⟨rfl, rfl⟩ := run
    rw [visits_readIndex]
    exact ⟨rfl, by simpa only [comparedIn] using .done d⟩
  | .value _, _, _, _, run | .star _, _, _, _, run | .existence _ _, _, _, _, run
  | .subquery _, _, _, _, run | .framed _ _, _, _, _, run => by
    simp only [sealPredicate, Seal.gives_pure] at run
    obtain ⟨rfl, rfl⟩ := run
    exact ⟨rfl, by simpa only [comparedIn] using .done _⟩
termination_by e => e.reach
decreasing_by all_goals simp only [Expr.reach] at *; omega

theorem sealArguments_trace (scope : List String) : ∀ (es : List (Expr Nat)) {d d' : Draft}
    {es' : List (Expr Nat)}, (g.sealArguments scope es).Gives d es' d' →
      originsOf (visitsAll es') = originsOf (visitsAll es) ∧
        g.Trace (comparing (g.comparedAll scope es)) d d'
  | [], d, d', es', run => by
    simp only [sealArguments, Seal.gives_pure] at run
    obtain ⟨rfl, rfl⟩ := run
    exact ⟨rfl, .done d⟩
  | e :: es, d, d', es', run => by
    simp only [sealArguments, Seal.gives_bind, Seal.gives_pure] at run
    obtain ⟨head, _, first, tail, _, second, rfl, rfl⟩ := run
    obtain ⟨origins, trace⟩ := sealPredicate_trace scope e first
    obtain ⟨originsAll, rest⟩ := sealArguments_trace scope es second
    refine ⟨by simp only [visitsAll, originsOf_append, origins, originsAll], ?_⟩
    rw [comparedAll, comparing_append]
    exact trace.append rest
termination_by es => reachAll es
decreasing_by all_goals simp only [reachAll] at *; omega

end

theorem sealFilter_trace {scope : List String} {filter filter' : Option (Expr Nat)}
    (run : (g.sealFilter scope filter).Gives d filter' d') :
    originsOf (visitsOption filter') = originsOf (visitsOption filter) ∧
      g.Trace (comparing (g.filterCompared scope filter)) d d' := by
  cases filter with
  | none =>
    simp only [sealFilter, Seal.gives_pure] at run
    obtain ⟨rfl, rfl⟩ := run
    exact ⟨rfl, .done d⟩
  | some e =>
    cases overwrite : g.options.overwrite with
    | true =>
      simp only [sealFilter, overwrite, if_true, Seal.gives_bind, Seal.gives_pure] at run
      obtain ⟨e', _, first, rfl, rfl⟩ := run
      simpa only [visitsOption, filterCompared, overwrite, if_true] using
        sealPredicate_trace scope e first
    | false =>
      simp only [sealFilter, overwrite, Bool.false_eq_true, if_false, Seal.gives_pure] at run
      obtain ⟨rfl, rfl⟩ := run
      refine ⟨rfl, ?_⟩
      simpa only [filterCompared, overwrite, Bool.false_eq_true, if_false] using .done d

theorem sealItem_trace {scope : List String} {item item' : SelectItem Nat}
    (run : (g.sealItem scope item).Gives d item' d') :
    item'.visits = item.visits ∧ g.Trace [] d d' := by
  unfold sealItem at run
  split at run
  · simp only [recordAlias, Seal.gives_bind, Seal.gives_modify, Seal.gives_pure] at run
    obtain ⟨_, _, rfl, rfl, rfl⟩ := run
    refine ⟨?_, .still rfl (.refl _)⟩
    cases item
    exact visits_renameColumn _ _
  · rw [Seal.gives_pure] at run
    obtain ⟨rfl, rfl⟩ := run
    exact ⟨rfl, .done d⟩

theorem sealProjection_trace {scope : List String} {items items' : List (SelectItem Nat)}
    (run : (g.sealProjection scope items).Gives d items' d') :
    visitsItems items' = visitsItems items ∧ g.Trace [] d d' := by
  unfold sealProjection at run
  split at run
  · induction items generalizing items' d with
    | nil =>
      simp only [List.mapM_nil, Seal.gives_pure] at run
      obtain ⟨rfl, rfl⟩ := run
      exact ⟨rfl, .done d⟩
    | cons item items ih =>
      simp only [List.mapM_cons, Seal.gives_bind, Seal.gives_pure] at run
      obtain ⟨head, _, first, tail, _, second, rfl, rfl⟩ := run
      obtain ⟨visits, trace⟩ := sealItem_trace first
      obtain ⟨visitsAll, rest⟩ := ih second
      exact ⟨by simp only [visitsItems, visits, visitsAll], trace.append rest⟩
  · rw [Seal.gives_pure] at run
    obtain ⟨rfl, rfl⟩ := run
    exact ⟨rfl, .done d⟩

mutual

theorem sealQuery_trace : ∀ (q : Query Nat) {d d' : Draft} {q' : Query Nat},
    (g.sealQuery q).Gives d q' d' →
      originsOf q'.visits = originsOf q.visits ∧ g.Trace (comparing (g.queryCompared q)) d d'
  | ⟨recursive, ctes, body, clauses⟩, d, d', q', run => by
    simp only [sealQuery, Seal.gives_bind, Seal.gives_pure] at run
    obtain ⟨ctes', _, first, body', _, second, rfl, rfl⟩ := run
    obtain ⟨originsCtes, trace⟩ := sealCtes_trace ctes first
    obtain ⟨originsBody, rest⟩ := sealBody_trace body second
    refine ⟨by simp only [Query.visits, originsOf_append, originsCtes, originsBody], ?_⟩
    rw [queryCompared, comparing_append]
    exact trace.append rest

theorem sealCtes_trace : ∀ (ctes : List (Cte Nat)) {d d' : Draft} {ctes' : List (Cte Nat)},
    (g.sealCtes ctes).Gives d ctes' d' →
      originsOf (visitsCtes ctes') = originsOf (visitsCtes ctes) ∧
        g.Trace (comparing (g.ctesCompared ctes)) d d'
  | [], d, d', ctes', run => by
    simp only [sealCtes, Seal.gives_pure] at run
    obtain ⟨rfl, rfl⟩ := run
    exact ⟨rfl, .done d⟩
  | ⟨name, columns, materialized, query⟩ :: ctes, d, d', ctes', run => by
    simp only [sealCtes, Seal.gives_bind, Seal.gives_pure] at run
    obtain ⟨query', _, first, rest', _, second, rfl, rfl⟩ := run
    obtain ⟨origins, trace⟩ := sealQuery_trace query first
    obtain ⟨originsRest, rest⟩ := sealCtes_trace ctes second
    refine ⟨by simp only [visitsCtes, Cte.visits, originsOf_append, origins, originsRest], ?_⟩
    rw [ctesCompared, comparing_append]
    exact trace.append rest

theorem sealBody_trace : ∀ (body : SetExpr Nat) {d d' : Draft} {body' : SetExpr Nat},
    (g.sealBody body).Gives d body' d' →
      originsOf body'.visits = originsOf body.visits ∧
        g.Trace (comparing (g.bodyCompared body)) d d'
  | .select s, d, d', body', run => by
    simp only [sealBody, Seal.gives_bind, Seal.gives_pure] at run
    obtain ⟨s', _, first, rfl, rfl⟩ := run
    simpa only [SetExpr.visits, bodyCompared] using sealSelect_trace s first
  | .query q, d, d', body', run => by
    simp only [sealBody, Seal.gives_bind, Seal.gives_pure] at run
    obtain ⟨q', _, first, rfl, rfl⟩ := run
    simpa only [SetExpr.visits, bodyCompared] using sealQuery_trace q first
  | .operation op quantifier l r, d, d', body', run => by
    simp only [sealBody, Seal.gives_bind, Seal.gives_pure] at run
    obtain ⟨l', _, first, r', _, second, rfl, rfl⟩ := run
    obtain ⟨originsL, trace⟩ := sealBody_trace l first
    obtain ⟨originsR, rest⟩ := sealBody_trace r second
    refine ⟨by simp only [SetExpr.visits, originsOf_append, originsL, originsR], ?_⟩
    rw [bodyCompared, comparing_append]
    exact trace.append rest
  | .values _ _, _, _, _, run | .insert _, _, _, _, run | .update _, _, _, _, run
  | .delete _, _, _, _, run => by
    simp only [sealBody, Seal.gives_pure] at run
    obtain ⟨rfl, rfl⟩ := run
    exact ⟨rfl, .done _⟩

theorem sealSelect_trace : ∀ (s : Select Nat) {d d' : Draft} {s' : Select Nat},
    (g.sealSelect s).Gives d s' d' →
      originsOf s'.visits = originsOf s.visits ∧ g.Trace (comparing (g.selectCompared s)) d d'
  | ⟨order, quantifiers, projection, sources, filter, clauses⟩, d, d', s', run => by
    simp only [sealSelect, Seal.gives_bind, Seal.gives_pure] at run
    obtain ⟨projection', _, first, sources', _, second, filter', _, third, rfl, rfl⟩ := run
    obtain ⟨visitsProjection, start⟩ := sealProjection_trace first
    obtain ⟨originsSources, trace⟩ := sealSources_trace sources second
    obtain ⟨originsFilter, rest⟩ := sealFilter_trace third
    refine ⟨?_, ?_⟩
    · simp only [Select.visits, originsOf_append, visitsProjection, originsSources, originsFilter]
    · rw [selectCompared, comparing_append]
      exact start.append (trace.append rest)

theorem sealSources_trace : ∀ (items : List (FromItem Nat)) {d d' : Draft}
    {items' : List (FromItem Nat)},
    (g.sealSources items).Gives d items' d' →
      originsOf (visitsSources items') = originsOf (visitsSources items) ∧
        g.Trace (comparing (g.sourcesCompared items)) d d'
  | [], d, d', items', run => by
    simp only [sealSources, Seal.gives_pure] at run
    obtain ⟨rfl, rfl⟩ := run
    exact ⟨rfl, .done d⟩
  | item :: items, d, d', items', run => by
    simp only [sealSources, Seal.gives_bind, Seal.gives_pure] at run
    obtain ⟨item', _, first, rest', _, second, rfl, rfl⟩ := run
    obtain ⟨origins, trace⟩ := sealSource_trace item first
    obtain ⟨originsRest, rest⟩ := sealSources_trace items second
    refine ⟨by simp only [visitsSources, originsOf_append, origins, originsRest], ?_⟩
    rw [sourcesCompared, comparing_append]
    exact trace.append rest

theorem sealSource_trace : ∀ (item : FromItem Nat) {d d' : Draft} {item' : FromItem Nat},
    (g.sealSource item).Gives d item' d' →
      originsOf item'.visits = originsOf item.visits ∧
        g.Trace (comparing (g.sourceCompared item)) d d'
  | ⟨relation, joins⟩, d, d', item', run => by
    simp only [sealSource, Seal.gives_bind, Seal.gives_pure] at run
    obtain ⟨relation', _, first, joins', _, second, rfl, rfl⟩ := run
    obtain ⟨originsRelation, trace⟩ := sealFactor_trace relation first
    obtain ⟨originsJoins, rest⟩ := sealJoins_trace joins second
    refine ⟨by simp only [FromItem.visits, originsOf_append, originsRelation, originsJoins], ?_⟩
    rw [sourceCompared, comparing_append]
    exact trace.append rest

theorem sealJoins_trace : ∀ (joins : List (Join Nat)) {d d' : Draft} {joins' : List (Join Nat)},
    (g.sealJoins joins).Gives d joins' d' →
      originsOf (visitsJoins joins') = originsOf (visitsJoins joins) ∧
        g.Trace (comparing (g.joinsCompared joins)) d d'
  | [], d, d', joins', run => by
    simp only [sealJoins, Seal.gives_pure] at run
    obtain ⟨rfl, rfl⟩ := run
    exact ⟨rfl, .done d⟩
  | ⟨kind, natural, relation, condition, shared⟩ :: joins, d, d', joins', run => by
    simp only [sealJoins, Seal.gives_bind, Seal.gives_pure] at run
    obtain ⟨relation', _, first, rest', _, second, rfl, rfl⟩ := run
    obtain ⟨originsRelation, trace⟩ := sealFactor_trace relation first
    obtain ⟨originsRest, rest⟩ := sealJoins_trace joins second
    refine ⟨?_, ?_⟩
    · simp only [visitsJoins, Join.visits, originsOf_append, originsRelation, originsRest]
    · rw [joinsCompared, comparing_append]
      exact trace.append rest

theorem sealFactor_trace : ∀ (factor : TableFactor Nat) {d d' : Draft} {factor' : TableFactor Nat},
    (g.sealFactor factor).Gives d factor' d' →
      originsOf factor'.visits = originsOf factor.visits ∧
        g.Trace (comparing (g.factorCompared factor)) d d'
  | .table _ _ _ _, d, d', factor', run => by
    simp only [sealFactor, Seal.gives_pure] at run
    obtain ⟨rfl, rfl⟩ := run
    exact ⟨rfl, .done d⟩
  | .derived lateral query label, d, d', factor', run => by
    simp only [sealFactor, Seal.gives_bind, Seal.gives_pure] at run
    obtain ⟨query', _, first, rfl, rfl⟩ := run
    simpa only [TableFactor.visits, factorCompared] using sealQuery_trace query first
  | .nested item label, d, d', factor', run => by
    simp only [sealFactor, Seal.gives_bind, Seal.gives_pure] at run
    obtain ⟨item', _, first, rfl, rfl⟩ := run
    simpa only [TableFactor.visits, factorCompared] using sealSource_trace item first

end

end Sealing

end SealedColumns
