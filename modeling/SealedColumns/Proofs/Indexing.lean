import SealedColumns.Proofs.Paths
import SealedColumns.Proofs.Reading
import SealedColumns.Proofs.References

/-!
Sealing a predicate value by value: which values it indexes and in which order, read off the tree,
and which columns it reads from their index columns. No value is met twice, however comparisons,
calls and parentheses are nested, and all that differs in the result stands at these places.
-/
namespace SealedColumns

namespace Sql

mutual

/-- The values that indexing an operand meets, with their places: its own, and those inside
parentheses and in the arguments of calls. -/
def Expr.operandsAt : Expr Nat → List (Place × Value Nat)
  | .value v => [([], v)]
  | .nested e => under 0 e.operandsAt
  | .call _ _ args _ _ => spread 0 (operandsAtAll args)
  | .argument _ _ e => under 0 e.operandsAt
  | _ => []

def operandsAtAll : List (Expr Nat) → List (List (Place × Value Nat))
  | [] => []
  | e :: es => e.operandsAt :: operandsAtAll es

end

end Sql

open Sql

namespace Sealing

section Places

variable (g : Sealing)

def operandsAtIf (indexed : Bool) (e : Expr Nat) : List (Place × Value Nat) :=
  if indexed then e.operandsAt else []

variable (scope : List String)

mutual

/-- The values that a predicate has indexed, in the order of the calls. -/
def indexedAt : Expr Nat → List (Place × Value Nat)
  | .nested e => under 0 (indexedAt e)
  | .unary _ e => under 0 (indexedAt e)
  | .isNull _ e => under 0 (indexedAt e)
  | .binary l _ r =>
    under 1 (operandsAtIf (g.isSensitive scope l && !g.isSensitive scope r) r) ++
      under 0 (operandsAtIf (g.isSensitive scope r && !g.isSensitive scope l) l) ++
      under 0 (indexedAt l) ++ under 1 (indexedAt r)
  | .pattern _ _ e p _ =>
    under 1 (operandsAtIf (g.isSensitive scope e) p) ++ under 0 (indexedAt e)
  | .inList _ e items =>
    (if g.isSensitive scope e then spread 1 (operandsAtAll items) else []) ++ under 0 (indexedAt e)
  | .inQuery _ e _ => under 0 (indexedAt e)
  | .call _ _ args _ _ => spread 0 (indexedAtAll args)
  | .argument _ _ e => under 0 (indexedAt e)
  | _ => []

def indexedAtAll : List (Expr Nat) → List (List (Place × Value Nat))
  | [] => []
  | e :: es => indexedAt e :: indexedAtAll es

end

mutual

/-- The columns that a predicate reads from their index columns, with what stands there then. -/
def readAt : Expr Nat → List (Place × Expr Nat)
  | .nested e => under 0 (readAt e)
  | .unary _ e => under 0 (readAt e)
  | .isNull _ e => under 0 (readAt e)
  | .binary l _ r => under 0 (readAt l) ++ under 1 (readAt r)
  | .pattern _ _ e _ _ => under 0 (readAt e)
  | .inList _ e _ => under 0 (readAt e)
  | .inQuery _ e _ => under 0 (readAt e)
  | .call _ _ args _ _ => spread 0 (readAtAll args)
  | .argument _ _ e => under 0 (readAt e)
  | .column qualifier name =>
    match g.sensitive? scope (.column qualifier name) with
    | some column => [([], .column qualifier { name with text := column.index })]
    | none => []
  | _ => []

def readAtAll : List (Expr Nat) → List (List (Place × Expr Nat))
  | [] => []
  | e :: es => readAt e :: readAtAll es

end

/-- The call for the value at a place. -/
def indexAt (x : Place × Value Nat) : Seal (Place × Expr Nat) := do
  let v ← g.indexValue x.2
  return (x.1, .value v)

end Places

end Sealing

namespace Seal

variable {α β : Type}

/-- What follows a step matters only at its results. -/
theorem bind_congr_of_gives {m : Seal α} {f f' : α → Seal β}
    (same : ∀ d a d', m.Gives d a d' → f a = f' a) : m >>= f = m >>= f' := by
  funext d
  change ExceptT.bindCont f (m.run d).1 (m.run d).2 = ExceptT.bindCont f' (m.run d).1 (m.run d).2
  rcases run : m.run d with ⟨_ | a, d'⟩
  · rfl
  · exact congrFun (same d a d' run) d'

end Seal

namespace Sealing

variable (g : Sealing)

theorem indexAt_under (i : Nat) (xs : List (Place × Value Nat)) :
    (under i xs).mapM g.indexAt = under i <$> xs.mapM g.indexAt := by
  induction xs with
  | nil => rfl
  | cons x xs ih =>
    rw [under_cons, List.mapM_cons, List.mapM_cons, ih]
    simp [indexAt]

theorem indexAt_spread (first : Nat) (xss : List (List (Place × Value Nat))) :
    (spread first xss).mapM g.indexAt =
      spread first <$> xss.mapM fun xs => xs.mapM g.indexAt := by
  induction xss generalizing first with
  | nil => rfl
  | cons xs xss ih =>
    rw [spread, List.mapM_append, indexAt_under, ih, List.mapM_cons]
    simp [spread]

mutual

theorem indexOperand_eq : ∀ e : Expr Nat,
    Subtype.val <$> g.indexOperand e = e.putAll <$> e.operandsAt.mapM g.indexAt
  | .value v => by
    simp [indexOperand, Expr.operandsAt, indexAt, Expr.putAll, Expr.put]
  | .nested e => by
    have inner := congrArg (Functor.map Expr.nested) (indexOperand_eq e)
    simpa [indexOperand, Expr.operandsAt, indexAt_under, Expr.putAll_under, Expr.onChild]
      using inner
  | .argument name arrow e => by
    have inner := congrArg (Functor.map (Expr.argument name arrow)) (indexOperand_eq e)
    simpa [indexOperand, Expr.operandsAt, indexAt_under, Expr.putAll_under, Expr.onChild]
      using inner
  | .call name quantifier args clauses tail => by
    have inner := congrArg (Functor.map fun args => Expr.call name quantifier args clauses tail)
      (indexArguments_eq args)
    simpa [indexOperand, Expr.operandsAt, indexAt_spread, Expr.putAll_arguments] using inner
  | .column _ _ | .unary _ _ | .isNull _ _ | .binary _ _ _ | .pattern _ _ _ _ _ | .inList _ _ _
  | .inQuery _ _ _ | .star _ | .existence _ _ | .subquery _ | .framed _ _ => by
    simp [indexOperand, Expr.operandsAt]

theorem indexArguments_eq : ∀ es : List (Expr Nat),
    Subtype.val <$> g.indexArguments es =
      (putEach · es) <$> (operandsAtAll es).mapM fun xs => xs.mapM g.indexAt
  | [] => by simp [indexArguments, operandsAtAll, putEach]
  | e :: es => by
    have parts : Subtype.val <$> g.indexArguments (e :: es) = (do
        let e' ← Subtype.val <$> g.indexOperand e
        let es' ← Subtype.val <$> g.indexArguments es
        pure (e' :: es')) := by
      simp [indexArguments]
    rw [parts, indexOperand_eq e, indexArguments_eq es]
    simp [operandsAtAll, putEach]

end

theorem indexOperandIf_eq (indexed : Bool) (e : Expr Nat) :
    Subtype.val <$> g.indexOperandIf indexed e =
      e.putAll <$> (operandsAtIf indexed e).mapM g.indexAt := by
  cases indexed with
  | true => exact g.indexOperand_eq e
  | false => simp [indexOperandIf, operandsAtIf]

theorem indexItems_eq (items : List (Expr Nat)) :
    g.indexItems items =
      (putEach · items) <$> (operandsAtAll items).mapM fun xs => xs.mapM g.indexAt := by
  induction items with
  | nil => simp [indexItems, operandsAtAll, putEach]
  | cons e items ih =>
    have parts : g.indexItems (e :: items) = (do
        let e' ← Subtype.val <$> g.indexOperand e
        let items' ← g.indexItems items
        pure (e' :: items')) := by
      simp [indexItems]
    rw [parts, g.indexOperand_eq e, ih]
    simp [operandsAtAll, putEach]

section Predicates

variable {g} (scope : List String)

mutual

/-- What is indexed as an operand has nothing in it that the predicate around it looks for. -/
theorem OperandIndexed.places : ∀ {e e' : Expr Nat}, g.OperandIndexed e e' →
    g.indexedAt scope e' = g.indexedAt scope e ∧ g.readAt scope e' = g.readAt scope e
  | _, _, .value _ => ⟨rfl, rfl⟩
  | _, _, .nested inner | _, _, .argument inner => by
    obtain ⟨indexed, read⟩ := inner.places
    simp only [indexedAt, readAt, indexed, read, and_self]
  | _, _, .call args => by
    obtain ⟨indexed, read⟩ := args.places
    simp only [indexedAt, readAt, indexed, read, and_self]
  | _, _, .kept _ => ⟨rfl, rfl⟩

theorem OperandsIndexed.places : ∀ {es es' : List (Expr Nat)}, g.OperandsIndexed es es' →
    g.indexedAtAll scope es' = g.indexedAtAll scope es ∧
      g.readAtAll scope es' = g.readAtAll scope es
  | _, _, .nil => ⟨rfl, rfl⟩
  | _, _, .cons head tail => by
    obtain ⟨indexed, read⟩ := head.places
    obtain ⟨indexedRest, readRest⟩ := tail.places
    simp only [indexedAtAll, readAtAll, indexed, read, indexedRest, readRest, and_self]

end

theorem OperandIndexedIf.places {indexed : Bool} {e e' : Expr Nat}
    (run : g.OperandIndexedIf indexed e e') :
    g.indexedAt scope e' = g.indexedAt scope e ∧ g.readAt scope e' = g.readAt scope e := by
  cases indexed with
  | true => exact OperandIndexed.places scope run
  | false =>
    cases run
    exact ⟨rfl, rfl⟩

variable (g)

mutual

/-- Sealing a predicate comes to one call for each value that is met, one after the other; then the
tree is rebuilt from the results. -/
theorem sealPredicate_eq (scope : List String) : ∀ e : Expr Nat,
    g.sealPredicate scope e =
      (fun xs => e.putAll (xs ++ g.readAt scope e)) <$> (g.indexedAt scope e).mapM g.indexAt
  | .nested e | .unary _ e | .isNull _ e | .inQuery _ e _ | .argument _ _ e => by
    unfold sealPredicate
    rw [sealPredicate_eq scope e]
    simp [indexedAt, readAt, indexAt_under, Expr.putAll_append, Expr.putAll_under, Expr.onChild]
  | .binary l op r => by
    have inner (l' : Reaching l) (r' : Reaching r)
        (same : g.indexedAt scope l'.val = g.indexedAt scope l ∧
          g.readAt scope l'.val = g.readAt scope l)
        (same' : g.indexedAt scope r'.val = g.indexedAt scope r ∧
          g.readAt scope r'.val = g.readAt scope r) : (do
        let l'' ← g.sealPredicate scope l'.val
        let r'' ← g.sealPredicate scope r'.val
        pure (Expr.binary l'' op r'')) = (do
        let xs ← (g.indexedAt scope l).mapM g.indexAt
        let ys ← (g.indexedAt scope r).mapM g.indexAt
        pure (.binary (l'.val.putAll (xs ++ g.readAt scope l)) op
          (r'.val.putAll (ys ++ g.readAt scope r)))) := by
      have reachL := l'.property
      have reachR := r'.property
      rw [sealPredicate_eq scope l'.val, sealPredicate_eq scope r'.val, same.1, same.2, same'.1,
        same'.2]
      simp
    have run : g.sealPredicate scope (.binary l op r) = (do
        let r' ← Subtype.val <$>
          g.indexOperandIf (g.isSensitive scope l && !g.isSensitive scope r) r
        let l' ← Subtype.val <$>
          g.indexOperandIf (g.isSensitive scope r && !g.isSensitive scope l) l
        let xs ← (g.indexedAt scope l).mapM g.indexAt
        let ys ← (g.indexedAt scope r).mapM g.indexAt
        pure (.binary (l'.putAll (xs ++ g.readAt scope l)) op
          (r'.putAll (ys ++ g.readAt scope r)))) := by
      unfold sealPredicate
      rw [bind_map_left]
      refine Seal.bind_congr_of_gives fun d r' d' indexedR => ?_
      rw [bind_map_left]
      refine Seal.bind_congr_of_gives fun d l' d' indexedL => ?_
      exact inner l' r' ((indexOperandIf_indexed indexedL).places scope)
        ((indexOperandIf_indexed indexedR).places scope)
    rw [run, indexOperandIf_eq, indexOperandIf_eq]
    simp [indexedAt, readAt, indexAt_under, Expr.putAll_append, Expr.putAll_under, Expr.onChild]
  | .pattern kind negated e p escape => by
    have run : g.sealPredicate scope (.pattern kind negated e p escape) = (do
        let p' ← Subtype.val <$> g.indexOperandIf (g.isSensitive scope e) p
        let e' ← g.sealPredicate scope e
        pure (.pattern kind negated e' p' escape)) := by
      rw [sealPredicate, bind_map_left]
    rw [run, indexOperandIf_eq, sealPredicate_eq scope e]
    simp [indexedAt, readAt, indexAt_under, Expr.putAll_append, Expr.putAll_under, Expr.onChild]
  | .inList negated e items => by
    rw [sealPredicate, sealPredicate_eq scope e]
    cases sensitive : g.isSensitive scope e with
    | true =>
      simp [indexedAt, readAt, sensitive, indexItems_eq, indexAt_under, indexAt_spread,
        Expr.putAll_append, Expr.putAll_under, Expr.putAll_items, Expr.onChild]
    | false =>
      simp [indexedAt, readAt, sensitive, indexAt_under, Expr.putAll_append, Expr.putAll_under,
        Expr.onChild]
  | .call name quantifier args clauses tail => by
    unfold sealPredicate
    rw [sealArguments_eq scope args]
    simp [indexedAt, readAt, indexAt_spread, Expr.putAll_append, Expr.putAll_arguments]
  | .column qualifier name => by
    unfold sealPredicate
    unfold readIndex readAt
    cases sensitive : g.sensitive? scope (.column qualifier name) with
    | none => simp [indexedAt]
    | some column => simp [indexedAt, Expr.renameColumn, Expr.putAll, Expr.put]
  | .value _ | .star _ | .existence _ _ | .subquery _ | .framed _ _ => by
    unfold sealPredicate
    simp [indexedAt, readAt]
termination_by e => e.reach
decreasing_by all_goals simp only [Expr.reach]; omega

theorem sealArguments_eq (scope : List String) : ∀ es : List (Expr Nat),
    g.sealArguments scope es = (fun xss => putEach (g.readAtAll scope es) (putEach xss es)) <$>
      (g.indexedAtAll scope es).mapM fun xs => xs.mapM g.indexAt
  | [] => by
    unfold sealArguments
    simp [indexedAtAll, readAtAll, putEach]
  | e :: es => by
    unfold sealArguments
    rw [sealPredicate_eq scope e, sealArguments_eq scope es]
    simp [indexedAtAll, readAtAll, putEach, Expr.putAll_append]
termination_by es => reachAll es
decreasing_by all_goals simp only [reachAll]; omega

end

end Predicates

section Tally

variable (scope : List String)

theorem tally_operandsAtIf (indexed : Bool) (p : Place) (e : Expr Nat) :
    tally p (operandsAtIf indexed e) ≤ tally p e.operandsAt := by
  cases indexed with
  | true => exact Nat.le_refl _
  | false => exact Nat.zero_le _

mutual

/-- A value that is met as an operand is not met again by the predicate around it. -/
theorem tally_indexedAt : ∀ (e : Expr Nat) (p : Place),
    tally p e.operandsAt + tally p (g.indexedAt scope e) ≤ 1
  | .value v, p => by
    simp [Expr.operandsAt, indexedAt, tally, List.count_singleton]
    split <;> omega
  | .nested e, [] | .unary _ e, [] | .isNull _ e, [] | .inQuery _ e _, []
  | .argument _ _ e, [] => by
    simp [Expr.operandsAt, indexedAt]
  | .nested e, i :: p | .unary _ e, i :: p | .isNull _ e, i :: p | .inQuery _ e _, i :: p
  | .argument _ _ e, i :: p => by
    have inner := tally_indexedAt e p
    simp only [Expr.operandsAt, indexedAt, tally_under, tally_nil]
    split <;> omega
  | .binary l _ r, [] => by simp [Expr.operandsAt, indexedAt]
  | .binary l _ r, i :: p => by
    have left := tally_indexedAt l p
    have right := tally_indexedAt r p
    have onLeft := tally_operandsAtIf (g.isSensitive scope r && !g.isSensitive scope l) p l
    have onRight := tally_operandsAtIf (g.isSensitive scope l && !g.isSensitive scope r) p r
    simp only [Expr.operandsAt, indexedAt, tally_append, tally_under, tally_nil]
    split <;> split <;> omega
  | .pattern _ _ e p _, [] => by simp [Expr.operandsAt, indexedAt]
  | .pattern _ _ e x _, i :: p => by
    have subject := tally_indexedAt e p
    have inner := tally_indexedAt x p
    have onPattern := tally_operandsAtIf (g.isSensitive scope e) p x
    simp only [Expr.operandsAt, indexedAt, tally_append, tally_under, tally_nil]
    split <;> split <;> omega
  | .inList _ e items, [] => by
    simp only [Expr.operandsAt, indexedAt, tally_append, tally_root_under, tally_nil]
    split <;> simp
  | .inList _ e items, 0 :: p => by
    have subject := tally_indexedAt e p
    simp only [Expr.operandsAt, indexedAt, tally_append, tally_under, tally_nil, if_true]
    split
    · rw [tally_spread_before (Nat.zero_lt_one)]
      omega
    · rw [tally_nil]
      omega
  | .inList _ e items, (i + 1) :: p => by
    have inner := tally_indexedAtAll items i p
    have other : 0 ≠ i + 1 := Nat.zero_ne_add_one i
    simp only [Expr.operandsAt, indexedAt, tally_append, tally_under, tally_nil, if_neg other]
    split
    · rw [Nat.add_comm i 1, tally_spread]
      omega
    · exact Nat.zero_le _
  | .call _ _ args _ _, [] => by simp [Expr.operandsAt, indexedAt]
  | .call _ _ args _ _, i :: p => by
    have inner := tally_indexedAtAll args i p
    simp only [Expr.operandsAt, indexedAt]
    rw [← Nat.zero_add i, tally_spread, tally_spread]
    exact inner
  | .column _ _, _ | .star _, _ | .existence _ _, _ | .subquery _, _ | .framed _ _, _ => by
    simp [Expr.operandsAt, indexedAt]

theorem tally_indexedAtAll : ∀ (es : List (Expr Nat)) (i : Nat) (p : Place),
    tally p ((operandsAtAll es)[i]?.getD []) + tally p ((g.indexedAtAll scope es)[i]?.getD []) ≤ 1
  | [], _, _ => by simp [operandsAtAll, indexedAtAll]
  | e :: es, 0, p => by simpa [operandsAtAll, indexedAtAll] using tally_indexedAt e p
  | e :: es, i + 1, p => by simpa [operandsAtAll, indexedAtAll] using tally_indexedAtAll es i p

end

mutual

theorem tally_readAt : ∀ (e : Expr Nat) (p : Place), tally p (g.readAt scope e) ≤ 1
  | .nested e, [] | .unary _ e, [] | .isNull _ e, [] | .inQuery _ e _, [] | .argument _ _ e, []
  | .pattern _ _ e _ _, [] | .inList _ e _, [] => by
    simp [readAt]
  | .nested e, i :: p | .unary _ e, i :: p | .isNull _ e, i :: p | .inQuery _ e _, i :: p
  | .argument _ _ e, i :: p | .pattern _ _ e _ _, i :: p | .inList _ e _, i :: p => by
    have inner := tally_readAt e p
    simp only [readAt, tally_under]
    split <;> omega
  | .binary l _ r, [] => by simp [readAt]
  | .binary l _ r, i :: p => by
    have left := tally_readAt l p
    have right := tally_readAt r p
    simp only [readAt, tally_append, tally_under]
    split <;> split <;> omega
  | .call _ _ args _ _, [] => by simp [readAt]
  | .call _ _ args _ _, i :: p => by
    simp only [readAt]
    rw [← Nat.zero_add i, tally_spread]
    exact tally_readAtAll args i p
  | .column qualifier name, p => by
    unfold readAt
    split
    · simp [tally, List.count_singleton]
      split <;> omega
    · exact Nat.zero_le _
  | .value _, _ | .star _, _ | .existence _ _, _ | .subquery _, _ | .framed _ _, _ => by
    simp [readAt]

theorem tally_readAtAll : ∀ (es : List (Expr Nat)) (i : Nat) (p : Place),
    tally p ((g.readAtAll scope es)[i]?.getD []) ≤ 1
  | [], _, _ => by simp [readAtAll]
  | e :: es, 0, p => by simpa [readAtAll] using tally_readAt e p
  | e :: es, i + 1, p => by simpa [readAtAll] using tally_readAtAll es i p

end

end Tally

end Sealing

end SealedColumns
