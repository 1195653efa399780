import SealedColumns.Proofs.Run
import SealedColumns.Seal.Filter

/-!
What sealing makes of a predicate, as relations that follow its recursion: one for the operands that
are indexed, and one for the predicate around them. Whatever holds of a sealed predicate is proved
from these, without the runs.
-/
namespace SealedColumns

namespace Sql

variable {ν : Type}

/-- The forms in which indexing finds values. -/
def Expr.isOperand : Expr ν → Bool
  | .value _ | .nested _ | .call _ _ _ _ _ | .argument _ _ _ => true
  | _ => false

/-- The forms that sealing a predicate leaves as they are. -/
def Expr.isClosed : Expr ν → Bool
  | .value _ | .star _ | .existence _ _ | .subquery _ | .framed _ _ => true
  | _ => false

end Sql

open Sql

namespace Operand

theorem ofExpr?_eq_some {e : Expr Nat} {operand : Operand} :
    ofExpr? e = some operand ↔ ∃ v, e = .value v ∧ ofValue? v = some operand := by
  cases e <;> simp [ofExpr?]

theorem ofValue?_placeholder {v : Value Nat} {n : Nat} :
    ofValue? v = some (.placeholder n) ↔ v = .placeholder (.numbered n) := by
  unfold ofValue?
  split <;> simp_all

theorem ofValue?_null {v : Value Nat} : ofValue? v = some .null ↔ v = .null := by
  unfold ofValue?
  split <;> simp_all

end Operand

namespace Sealing

section Relations

variable (g : Sealing)

inductive ValueIndexed : Value Nat → Value Nat → Prop where
  | literal {v : Value Nat} {text index : String} : Operand.ofValue? v = some (.literal text) →
      g.handler.index text = .ok index → ValueIndexed v (.string index)
  | kept {v : Value Nat} : (∀ text, Operand.ofValue? v ≠ some (.literal text)) → ValueIndexed v v

mutual

inductive OperandIndexed : Expr Nat → Expr Nat → Prop where
  | value {v v' : Value Nat} : g.ValueIndexed v v' → OperandIndexed (.value v) (.value v')
  | nested {e e' : Expr Nat} : OperandIndexed e e' → OperandIndexed (.nested e) (.nested e')
  | call {name : Name} {quantifier : Option Quantifier}
      {args args' clauses tail : List (Expr Nat)} :
      OperandsIndexed args args' →
        OperandIndexed (.call name quantifier args clauses tail)
          (.call name quantifier args' clauses tail)
  | argument {name : Ident} {arrow : String} {e e' : Expr Nat} : OperandIndexed e e' →
      OperandIndexed (.argument name arrow e) (.argument name arrow e')
  | kept {e : Expr Nat} : e.isOperand = false → OperandIndexed e e

inductive OperandsIndexed : List (Expr Nat) → List (Expr Nat) → Prop where
  | nil : OperandsIndexed [] []
  | cons {e e' : Expr Nat} {es es' : List (Expr Nat)} : OperandIndexed e e' →
      OperandsIndexed es es' → OperandsIndexed (e :: es) (e' :: es')

end

def OperandIndexedIf (indexed : Bool) (e e' : Expr Nat) : Prop :=
  if indexed then g.OperandIndexed e e' else e' = e

def OperandsIndexedIf (indexed : Bool) (es es' : List (Expr Nat)) : Prop :=
  if indexed then g.OperandsIndexed es es' else es' = es

variable (scope : List String)

mutual

inductive PredicateSealed : Expr Nat → Expr Nat → Prop where
  | nested {e e' : Expr Nat} : PredicateSealed e e' → PredicateSealed (.nested e) (.nested e')
  | unary {op : UnaryOp} {e e' : Expr Nat} : PredicateSealed e e' →
      PredicateSealed (.unary op e) (.unary op e')
  | isNull {negated : Bool} {e e' : Expr Nat} : PredicateSealed e e' →
      PredicateSealed (.isNull negated e) (.isNull negated e')
  | binary {op : BinaryOp} {l l' l'' r r' r'' : Expr Nat} :
      g.OperandIndexedIf (g.isSensitive scope l && !g.isSensitive scope r) r r' →
      g.OperandIndexedIf (g.isSensitive scope r && !g.isSensitive scope l) l l' →
      PredicateSealed l' l'' → PredicateSealed r' r'' →
        PredicateSealed (.binary l op r) (.binary l'' op r'')
  | pattern {kind : PatternKind} {negated : Bool} {e e' p p' : Expr Nat} {escape : Option Value} :
      g.OperandIndexedIf (g.isSensitive scope e) p p' → PredicateSealed e e' →
        PredicateSealed (.pattern kind negated e p escape) (.pattern kind negated e' p' escape)
  | inList {negated : Bool} {e e' : Expr Nat} {items items' : List (Expr Nat)} :
      g.OperandsIndexedIf (g.isSensitive scope e) items items' → PredicateSealed e e' →
        PredicateSealed (.inList negated e items) (.inList negated e' items')
  | inQuery {negated : Bool} {e e' : Expr Nat} {q : Query Nat} : PredicateSealed e e' →
      PredicateSealed (.inQuery negated e q) (.inQuery negated e' q)
  | call {name : Name} {quantifier : Option Quantifier}
      {args args' clauses tail : List (Expr Nat)} :
      ArgumentsSealed args args' →
        PredicateSealed (.call name quantifier args clauses tail)
          (.call name quantifier args' clauses tail)
  | argument {name : Ident} {arrow : String} {e e' : Expr Nat} : PredicateSealed e e' →
      PredicateSealed (.argument name arrow e) (.argument name arrow e')
  | column {qualifier : List Ident} {name : Ident} :
      PredicateSealed (.column qualifier name) (g.readIndex scope (.column qualifier name))
  | kept {e : Expr Nat} : e.isClosed = true → PredicateSealed e e

inductive ArgumentsSealed : List (Expr Nat) → List (Expr Nat) → Prop where
  | nil : ArgumentsSealed [] []
  | cons {e e' : Expr Nat} {es es' : List (Expr Nat)} : PredicateSealed e e' →
      ArgumentsSealed es es' → ArgumentsSealed (e :: es) (e' :: es')

end

end Relations

variable {g : Sealing} {scope : List String} {d d' : Draft}

theorem indexValue_indexed {v v' : Value Nat} (run : (g.indexValue v).Gives d v' d') :
    g.ValueIndexed v v' := by
  unfold indexValue at run
  split at run
  · rename_i ordinal known
    simp only [Seal.gives_bind, Seal.gives_pure] at run
    obtain ⟨_, _, _, rfl, rfl⟩ := run
    exact .kept (by simp [known])
  · rename_i plain known
    simp only [Seal.gives_bind, gives_index, Seal.gives_pure] at run
    obtain ⟨index, _, ⟨indexed, rfl⟩, rfl, rfl⟩ := run
    exact .literal known indexed
  · rename_i known
    rw [Seal.gives_pure] at run
    obtain ⟨rfl, rfl⟩ := run
    exact .kept (by simp [known])
  · rename_i known
    rw [Seal.gives_pure] at run
    obtain ⟨rfl, rfl⟩ := run
    exact .kept (by simp [known])

mutual

theorem indexOperand_indexed : ∀ (e : Expr Nat) {d d' : Draft} {e' : Reaching e},
    (g.indexOperand e).Gives d e' d' → g.OperandIndexed e e'.val
  | .value v, d, d', e', run => by
    simp only [indexOperand, Seal.gives_bind, Seal.gives_pure] at run
    obtain ⟨v', _, first, rfl, rfl⟩ := run
    exact .value (indexValue_indexed first)
  | .nested e, d, d', e', run => by
    simp only [indexOperand, Seal.gives_bind, Seal.gives_pure] at run
    obtain ⟨⟨inner, _⟩, _, first, rfl, rfl⟩ := run
    exact .nested (indexOperand_indexed e first)
  | .call name quantifier args clauses tail, d, d', e', run => by
    simp only [indexOperand, Seal.gives_bind, Seal.gives_pure] at run
    obtain ⟨⟨inner, _⟩, _, first, rfl, rfl⟩ := run
    exact .call (indexArguments_indexed args first)
  | .argument name arrow e, d, d', e', run => by
    simp only [indexOperand, Seal.gives_bind, Seal.gives_pure] at run
    obtain ⟨⟨inner, _⟩, _, first, rfl, rfl⟩ := run
    exact .argument (indexOperand_indexed e first)
  | .column _ _, _, _, _, run | .unary _ _, _, _, _, run | .isNull _ _, _, _, _, run
  | .binary _ _ _, _, _, _, run | .pattern _ _ _ _ _, _, _, _, run | .inList _ _ _, _, _, _, run
  | .inQuery _ _ _, _, _, _, run | .star _, _, _, _, run | .existence _ _, _, _, _, run
  | .subquery _, _, _, _, run | .framed _ _, _, _, _, run => by
    simp only [indexOperand, Seal.gives_pure] at run
    obtain ⟨rfl, rfl⟩ := run
    exact .kept rfl

theorem indexArguments_indexed : ∀ (es : List (Expr Nat)) {d d' : Draft} {es' : ReachingAll es},
    (g.indexArguments es).Gives d es' d' → g.OperandsIndexed es es'.val
  | [], d, d', es', run => by
    simp only [indexArguments, Seal.gives_pure] at run
    obtain ⟨rfl, rfl⟩ := run
    exact .nil
  | e :: es, d, d', es', run => by
    simp only [indexArguments, Seal.gives_bind, Seal.gives_pure] at run
    obtain ⟨⟨head, _⟩, _, first, ⟨tail, _⟩, _, second, rfl, rfl⟩ := run
    exact .cons (indexOperand_indexed e first) (indexArguments_indexed es second)

end

theorem indexOperandIf_indexed {indexed : Bool} {e : Expr Nat} {e' : Reaching e}
    (run : (g.indexOperandIf indexed e).Gives d e' d') : g.OperandIndexedIf indexed e e'.val := by
  cases indexed with
  | true => exact indexOperand_indexed e run
  | false =>
    simp only [indexOperandIf, Bool.false_eq_true, if_false, Seal.gives_pure] at run
    obtain ⟨rfl, rfl⟩ := run
    rfl

theorem indexItems_indexed {items items' : List (Expr Nat)}
    (run : (g.indexItems items).Gives d items' d') : g.OperandsIndexed items items' := by
  induction items generalizing items' d with
  | nil =>
    simp only [indexItems, Seal.gives_pure] at run
    obtain ⟨rfl, rfl⟩ := run
    exact .nil
  | cons e items ih =>
    simp only [indexItems, Seal.gives_bind, Seal.gives_pure] at run
    obtain ⟨e', _, first, rest, _, second, rfl, rfl⟩ := run
    exact .cons (indexOperand_indexed e first) (ih second)

mutual

theorem sealPredicate_sealed (scope : List String) : ∀ (e : Expr Nat) {d d' : Draft}
    {e' : Expr Nat}, (g.sealPredicate scope e).Gives d e' d' → g.PredicateSealed scope e e'
  | .nested e, d, d', e', run => by
    simp only [sealPredicate, Seal.gives_bind, Seal.gives_pure] at run
    obtain ⟨inner, _, first, rfl, rfl⟩ := run
    exact .nested (sealPredicate_sealed scope e first)
  | .unary op e, d, d', e', run => by
    simp only [sealPredicate, Seal.gives_bind, Seal.gives_pure] at run
    obtain ⟨inner, _, first, rfl, rfl⟩ := run
    exact .unary (sealPredicate_sealed scope e first)
  | .isNull negated e, d, d', e', run => by
    simp only [sealPredicate, Seal.gives_bind, Seal.gives_pure] at run
    obtain ⟨inner, _, first, rfl, rfl⟩ := run
    exact .isNull (sealPredicate_sealed scope e first)
  | .binary l op r, d, d', e', run => by
    simp only [sealPredicate, Seal.gives_bind, Seal.gives_pure] at run
    obtain ⟨⟨r', reachR⟩, _, indexR, ⟨l', reachL⟩, _, indexL, l'', _, first, r'', _, second, rfl,
      rfl⟩ := run
    exact .binary (indexOperandIf_indexed indexR) (indexOperandIf_indexed indexL)
      (sealPredicate_sealed scope l' first) (sealPredicate_sealed scope r' second)
  | .pattern kind negated e p escape, d, d', e', run => by
    simp only [sealPredicate, Seal.gives_bind, Seal.gives_pure] at run
    obtain ⟨⟨p', _⟩, _, index, e'', _, first, rfl, rfl⟩ := run
    exact .pattern (indexOperandIf_indexed index) (sealPredicate_sealed scope e first)
  | .inList negated e items, d, d', e', run => by
    cases sensitive : g.isSensitive scope e with
    | true =>
      simp only [sealPredicate, sensitive, if_true, Seal.gives_bind, Seal.gives_pure] at run
      obtain ⟨items', _, index, e'', _, first, rfl, rfl⟩ := run
      refine .inList ?_ (sealPredicate_sealed scope e first)
      simpa only [OperandsIndexedIf, sensitive, if_true] using indexItems_indexed index
    | false =>
      simp only [sealPredicate, sensitive, Bool.false_eq_true, if_false, Seal.gives_bind,
        Seal.gives_pure] at run
      obtain ⟨_, _, ⟨rfl, rfl⟩, e'', _, first, rfl, rfl⟩ := run
      refine .inList ?_ (sealPredicate_sealed scope e first)
      simp only [OperandsIndexedIf, sensitive, Bool.false_eq_true, if_false]
  | .inQuery negated e q, d, d', e', run => by
    simp only [sealPredicate, Seal.gives_bind, Seal.gives_pure] at run
    obtain ⟨inner, _, first, rfl, rfl⟩ := run
    exact .inQuery (sealPredicate_sealed scope e first)
  | .call name quantifier args clauses tail, d, d', e', run => by
    simp only [sealPredicate, Seal.gives_bind, Seal.gives_pure] at run
    obtain ⟨inner, _, first, rfl, rfl⟩ := run
    exact .call (sealArguments_sealed scope args first)
  | .argument name arrow e, d, d', e', run => by
    simp only [sealPredicate, Seal.gives_bind, Seal.gives_pure] at run
    obtain ⟨inner, _, first, rfl, rfl⟩ := run
    exact .argument (sealPredicate_sealed scope e first)
  | .column qualifier name, d, d', e', run => by
    simp only [sealPredicate, Seal.gives_pure] at run
    obtain ⟨rfl, rfl⟩ := run
    exact .column
  | .value _, _, _, _, run | .star _, _, _, _, run | .existence _ _, _, _, _, run
  | .subquery _, _, _, _, run | .framed _ _, _, _, _, run => by
    simp only [sealPredicate, Seal.gives_pure] at run
    obtain ⟨rfl, rfl⟩ := run
    exact .kept rfl
termination_by e => e.reach
decreasing_by all_goals simp only [Expr.reach] at *; omega

theorem sealArguments_sealed (scope : List String) : ∀ (es : List (Expr Nat)) {d d' : Draft}
    {es' : List (Expr Nat)}, (g.sealArguments scope es).Gives d es' d' →
      g.ArgumentsSealed scope es es'
  | [], d, d', es', run => by
    simp only [sealArguments, Seal.gives_pure] at run
    obtain ⟨rfl, rfl⟩ := run
    exact .nil
  | e :: es, d, d', es', run => by
    simp only [sealArguments, Seal.gives_bind, Seal.gives_pure] at run
    obtain ⟨head, _, first, tail, _, second, rfl, rfl⟩ := run
    exact .cons (sealPredicate_sealed scope e first) (sealArguments_sealed scope es second)
termination_by es => reachAll es
decreasing_by all_goals simp only [reachAll] at *; omega

end

/-- A filter is sealed where reads are turned to the sealed columns, and else left. -/
inductive FilterSealed (g : Sealing) (scope : List String) :
    Option (Expr Nat) → Option (Expr Nat) → Prop where
  | none : FilterSealed g scope none none
  | some {e e' : Expr Nat} : g.options.overwrite = true → g.PredicateSealed scope e e' →
      FilterSealed g scope (some e) (some e')
  | kept {filter : Option (Expr Nat)} : g.options.overwrite = false →
      FilterSealed g scope filter filter

theorem sealFilter_sealed {filter filter' : Option (Expr Nat)}
    (run : (g.sealFilter scope filter).Gives d filter' d') :
    g.FilterSealed scope filter filter' := by
  cases filter with
  | none =>
    simp only [sealFilter, Seal.gives_pure] at run
    obtain ⟨rfl, rfl⟩ := run
    exact .none
  | some e =>
    cases overwrite : g.options.overwrite with
    | true =>
      simp only [sealFilter, overwrite, if_true, Seal.gives_bind, Seal.gives_pure] at run
      obtain ⟨e', _, first, rfl, rfl⟩ := run
      exact .some overwrite (sealPredicate_sealed scope e first)
    | false =>
      simp only [sealFilter, overwrite, Bool.false_eq_true, if_false, Seal.gives_pure] at run
      obtain ⟨rfl, rfl⟩ := run
      exact .kept overwrite

end Sealing

end SealedColumns
