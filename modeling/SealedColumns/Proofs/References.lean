import Mathlib.Data.List.Forall2
import SealedColumns.Proofs.Predicate
import SealedColumns.Seal.Read

/-!
What a filter reads before and after it is sealed. A column reference is renamed to the index column
of an entry that its name stands for; a literal across from a renamed column gives way to its index;
all else, the subqueries included, which are scopes of their own, stays as it was.
-/
namespace SealedColumns

namespace Sql

structure Reference where
  qualifier : List Ident
  name : Ident
deriving DecidableEq, Repr

variable {ν : Type}

/-- The filter of a statement itself; the selects of a query have their own. -/
def Statement.filter : Statement ν → Option (Expr ν)
  | .insert x => x.updateFilter
  | .update x => x.filter
  | .delete x => x.filter
  | _ => none

end Sql

open Sql

section Reading

variable (handler : Handler) (stands : Reference → SensitiveColumn → Prop)

/-- A column gives way to the index column of an entry that it stands for. -/
inductive Renamed : Expr Nat → Expr Nat → Prop where
  | column {qualifier : List Ident} {name : Ident} {c : SensitiveColumn} :
      stands ⟨qualifier, name⟩ c →
        Renamed (.column qualifier name) (.column qualifier { name with text := c.index })

mutual

/-- Part of a filter, and what is read in its place. With the flag, which is set only across from a
column that is renamed, the values of the part are compared. -/
inductive ExprRead : Bool → Expr Nat → Expr Nat → Prop where
  | kept {compared : Bool} {e : Expr Nat} : ExprRead compared e e
  | renamed {compared : Bool} {e e' : Expr Nat} : Renamed stands e e' → ExprRead compared e e'
  | indexed {v : Value Nat} {text index : String} : Operand.ofValue? v = some (.literal text) →
      handler.index text = .ok index → ExprRead true (.value v) (.value (.string index))
  | nested {compared : Bool} {e e' : Expr Nat} : ExprRead compared e e' →
      ExprRead compared (.nested e) (.nested e')
  | unary {compared : Bool} {op : UnaryOp} {e e' : Expr Nat} : ExprRead false e e' →
      ExprRead compared (.unary op e) (.unary op e')
  | isNull {compared negated : Bool} {e e' : Expr Nat} : ExprRead false e e' →
      ExprRead compared (.isNull negated e) (.isNull negated e')
  | binary {compared onLeft onRight : Bool} {op : BinaryOp} {l l' r r' : Expr Nat} :
      (onRight = true → Renamed stands l l') → (onLeft = true → Renamed stands r r') →
      ExprRead onLeft l l' → ExprRead onRight r r' →
        ExprRead compared (.binary l op r) (.binary l' op r')
  | pattern {compared onPattern negated : Bool} {kind : PatternKind} {e e' p p' : Expr Nat}
      {escape : Option Value} : (onPattern = true → Renamed stands e e') →
      ExprRead false e e' → ExprRead onPattern p p' →
        ExprRead compared (.pattern kind negated e p escape) (.pattern kind negated e' p' escape)
  | inList {compared onItems negated : Bool} {e e' : Expr Nat} {items items' : List (Expr Nat)} :
      (onItems = true → Renamed stands e e') → ExprRead false e e' →
      ArgumentsRead onItems items items' →
        ExprRead compared (.inList negated e items) (.inList negated e' items')
  | inQuery {compared negated : Bool} {e e' : Expr Nat} {q : Query Nat} : ExprRead false e e' →
      ExprRead compared (.inQuery negated e q) (.inQuery negated e' q)
  | call {compared : Bool} {name : Name} {quantifier : Option Quantifier}
      {args args' clauses tail : List (Expr Nat)} : ArgumentsRead compared args args' →
        ExprRead compared (.call name quantifier args clauses tail)
          (.call name quantifier args' clauses tail)
  | argument {compared : Bool} {name : Ident} {arrow : String} {e e' : Expr Nat} :
      ExprRead compared e e' →
        ExprRead compared (.argument name arrow e) (.argument name arrow e')

inductive ArgumentsRead : Bool → List (Expr Nat) → List (Expr Nat) → Prop where
  | nil {compared : Bool} : ArgumentsRead compared [] []
  | cons {compared : Bool} {e e' : Expr Nat} {es es' : List (Expr Nat)} :
      ExprRead compared e e' → ArgumentsRead compared es es' →
        ArgumentsRead compared (e :: es) (e' :: es')

end

/-- A filter, and what is read in its place. -/
abbrev FilterRead : Option (Expr Nat) → Option (Expr Nat) → Prop :=
  Option.Rel (ExprRead handler stands false)

end Reading

section Weaker

variable {handler : Handler} {stands stands' : Reference → SensitiveColumn → Prop}

theorem Renamed.weaken (weaker : ∀ r c, stands r c → stands' r c) {e e' : Expr Nat}
    (renamed : Renamed stands e e') : Renamed stands' e e' := by
  obtain ⟨stand⟩ := renamed
  exact .column (weaker _ _ stand)

mutual

theorem ExprRead.weaken (weaker : ∀ r c, stands r c → stands' r c) :
    ∀ {compared : Bool} {e e' : Expr Nat}, ExprRead handler stands compared e e' →
      ExprRead handler stands' compared e e'
  | _, _, _, .kept => .kept
  | _, _, _, .renamed renamed => .renamed (renamed.weaken weaker)
  | _, _, _, .indexed known answer => .indexed known answer
  | _, _, _, .nested inner => .nested (inner.weaken weaker)
  | _, _, _, .unary inner => .unary (inner.weaken weaker)
  | _, _, _, .isNull inner => .isNull (inner.weaken weaker)
  | _, _, _, .binary left right l r =>
    .binary (fun set => (left set).weaken weaker) (fun set => (right set).weaken weaker)
      (l.weaken weaker) (r.weaken weaker)
  | _, _, _, .pattern subject e p =>
    .pattern (fun set => (subject set).weaken weaker) (e.weaken weaker) (p.weaken weaker)
  | _, _, _, .inList subject e items =>
    .inList (fun set => (subject set).weaken weaker) (e.weaken weaker) (items.weaken weaker)
  | _, _, _, .inQuery inner => .inQuery (inner.weaken weaker)
  | _, _, _, .call args => .call (args.weaken weaker)
  | _, _, _, .argument inner => .argument (inner.weaken weaker)

theorem ArgumentsRead.weaken (weaker : ∀ r c, stands r c → stands' r c) :
    ∀ {compared : Bool} {es es' : List (Expr Nat)}, ArgumentsRead handler stands compared es es' →
      ArgumentsRead handler stands' compared es es'
  | _, _, _, .nil => .nil
  | _, _, _, .cons head tail => .cons (head.weaken weaker) (tail.weaken weaker)

end

theorem ArgumentsRead.refl {compared : Bool} (es : List (Expr Nat)) :
    ArgumentsRead handler stands compared es es := by
  induction es with
  | nil => exact .nil
  | cons e es ih => exact .cons .kept ih

theorem FilterRead.refl (filter : Option (Expr Nat)) : FilterRead handler stands filter filter := by
  cases filter with
  | none => exact .none
  | some e => exact .some .kept

theorem FilterRead.weaken (weaker : ∀ r c, stands r c → stands' r c)
    {filter filter' : Option (Expr Nat)} (read : FilterRead handler stands filter filter') :
    FilterRead handler stands' filter filter' := by
  cases read with
  | none => exact .none
  | some inner => exact .some (inner.weaken weaker)

theorem Renamed.ne_of_none (none : ∀ r c, ¬ stands r c) {e e' : Expr Nat} {flag : Bool}
    (renamed : flag = true → Renamed stands e e') : flag = false := by
  cases flag with
  | false => rfl
  | true =>
    obtain ⟨stand⟩ := renamed rfl
    exact absurd stand (none _ _)

mutual

/-- Where no name stands for an entry, nothing is renamed, and so nothing is compared. -/
theorem ExprRead.eq_of_none (none : ∀ r c, ¬ stands r c) : ∀ {e e' : Expr Nat},
    ExprRead handler stands false e e' → e' = e
  | _, _, .kept => rfl
  | _, _, .renamed (.column stand) => absurd stand (none _ _)
  | _, _, .nested inner | _, _, .unary inner | _, _, .isNull inner | _, _, .inQuery inner
  | _, _, .argument inner => by rw [inner.eq_of_none none]
  | _, _, .binary left right l r => by
    obtain rfl := Renamed.ne_of_none none left
    obtain rfl := Renamed.ne_of_none none right
    rw [l.eq_of_none none, r.eq_of_none none]
  | _, _, .pattern subject e p => by
    obtain rfl := Renamed.ne_of_none none subject
    rw [e.eq_of_none none, p.eq_of_none none]
  | _, _, .inList subject e items => by
    obtain rfl := Renamed.ne_of_none none subject
    rw [e.eq_of_none none, items.eq_of_none none]
  | _, _, .call args => by rw [args.eq_of_none none]

theorem ArgumentsRead.eq_of_none (none : ∀ r c, ¬ stands r c) : ∀ {es es' : List (Expr Nat)},
    ArgumentsRead handler stands false es es' → es' = es
  | _, _, .nil => rfl
  | _, _, .cons head tail => by rw [head.eq_of_none none, tail.eq_of_none none]

end

theorem FilterRead.eq_of_none (none : ∀ r c, ¬ stands r c) {filter filter' : Option (Expr Nat)}
    (read : FilterRead handler stands filter filter') : filter' = filter := by
  cases read with
  | none => rfl
  | some inner => rw [inner.eq_of_none none]

end Weaker

namespace Sealing

/-- The entry that a reference stands for in a scope, by its name alone; a derived column stands for
none. -/
def Stands (g : Sealing) (scope : List String) (r : Reference) (c : SensitiveColumn) : Prop :=
  g.active.isDerived r.name = false ∧ g.active.getIn? scope r.name = some c

variable {g : Sealing} {scope : List String}

theorem sensitive?_eq_some {e : Expr Nat} {c : SensitiveColumn} :
    g.sensitive? scope e = some c ↔
      ∃ qualifier name, e = .column qualifier name ∧ g.Stands scope ⟨qualifier, name⟩ c := by
  cases e with
  | column qualifier name =>
    cases derived : g.active.isDerived name <;>
      simp [sensitive?, Expr.columnName?, Stands, derived]
  | _ => simp [sensitive?, Expr.columnName?]

/-- A sensitive column is read by its index column wherever the filter around it is sealed. -/
theorem PredicateSealed.renamed {e e' : Expr Nat} (sensitive : g.isSensitive scope e = true)
    (run : g.PredicateSealed scope e e') : Renamed (g.Stands scope) e e' := by
  obtain ⟨c, known⟩ := Option.isSome_iff_exists.mp sensitive
  obtain ⟨qualifier, name, rfl, stands⟩ := sensitive?_eq_some.mp known
  cases run with
  | column =>
    simp only [readIndex, known]
    exact .column stands
  | kept closed => cases closed

/-- The forms in which no value is indexed are as they were. -/
theorem OperandIndexedIf.eq_of_not_operand {indexed : Bool} {e e' : Expr Nat}
    (run : g.OperandIndexedIf indexed e e') (other : e'.isOperand = false) : e = e' := by
  cases indexed with
  | false => exact Eq.symm run
  | true =>
    cases run with
    | kept _ => rfl
    | _ => cases other

theorem readIndex_read (qualifier : List Ident) (name : Ident) (compared : Bool) :
    ExprRead g.handler (g.Stands scope) compared (.column qualifier name)
      (g.readIndex scope (.column qualifier name)) := by
  unfold readIndex
  split
  · rename_i c sensitive
    obtain ⟨_, _, same, stands⟩ := sensitive?_eq_some.mp sensitive
    cases same
    exact .renamed (.column stands)
  · exact .kept

theorem ValueIndexed.read {v v' : Value Nat} (indexed : g.ValueIndexed v v') :
    ExprRead g.handler (g.Stands scope) true (.value v) (.value v') := by
  cases indexed with
  | literal known answer => exact .indexed known answer
  | kept _ => exact .kept

mutual

theorem OperandIndexed.read : ∀ {e e' : Expr Nat}, g.OperandIndexed e e' →
    ExprRead g.handler (g.Stands scope) true e e'
  | _, _, .value value => value.read
  | _, _, .nested inner => .nested inner.read
  | _, _, .argument inner => .argument inner.read
  | _, _, .call args => .call args.read
  | _, _, .kept _ => .kept

theorem OperandsIndexed.read : ∀ {es es' : List (Expr Nat)}, g.OperandsIndexed es es' →
    ArgumentsRead g.handler (g.Stands scope) true es es'
  | _, _, .nil => .nil
  | _, _, .cons head tail => .cons head.read tail.read

end

theorem OperandIndexedIf.unset (e : Expr Nat) : g.OperandIndexedIf false e e := rfl

theorem OperandIndexedIf.set {e e' : Expr Nat} (indexed : g.OperandIndexed e e') :
    g.OperandIndexedIf true e e' := indexed

theorem OperandsIndexedIf.unset (es : List (Expr Nat)) : g.OperandsIndexedIf false es es := rfl

theorem OperandsIndexedIf.set {es es' : List (Expr Nat)} (indexed : g.OperandsIndexed es es') :
    g.OperandsIndexedIf true es es' := indexed

theorem OperandIndexedIf.read {indexed : Bool} {e e' : Expr Nat}
    (run : g.OperandIndexedIf indexed e e') :
    ExprRead g.handler (g.Stands scope) indexed e e' := by
  cases indexed with
  | true => exact OperandIndexed.read run
  | false => exact Eq.symm run ▸ .kept

theorem OperandsIndexedIf.read {indexed : Bool} {es es' : List (Expr Nat)}
    (run : g.OperandsIndexedIf indexed es es') :
    ArgumentsRead g.handler (g.Stands scope) indexed es es' := by
  cases indexed with
  | true => exact OperandsIndexed.read run
  | false => exact Eq.symm run ▸ .refl es

/-- The sides of a comparison: across from the side that is indexed, a column is renamed. -/
theorem renamed_across {l l' l'' r : Expr Nat}
    (onLeft : g.OperandIndexedIf (g.isSensitive scope r && !g.isSensitive scope l) l l')
    (left : g.PredicateSealed scope l' l'')
    (compared : (g.isSensitive scope l && !g.isSensitive scope r) = true) :
    Renamed (g.Stands scope) l l'' := by
  obtain ⟨sensitive, other⟩ := Bool.and_eq_true_iff.mp compared
  rw [Bool.not_eq_true'] at other
  rw [other, Bool.false_and] at onLeft
  obtain rfl : l' = l := onLeft
  exact left.renamed sensitive

-- On the relation: an operand that is indexed first is sealed in its indexed form, so the two
-- passes are read together.
mutual

theorem PredicateSealed.read : ∀ {e₁ e₂ : Expr Nat}, g.PredicateSealed scope e₁ e₂ →
    ∀ {compared : Bool} {e : Expr Nat}, g.OperandIndexedIf compared e e₁ →
      ExprRead g.handler (g.Stands scope) compared e e₂
  | _, _, .nested inner, false, _, rfl => .nested (inner.read (.unset _))
  | _, _, .nested inner, true, _, .nested first => .nested (inner.read (.set first))
  | _, _, .argument inner, false, _, rfl => .argument (inner.read (.unset _))
  | _, _, .argument inner, true, _, .argument first =>
    .argument (inner.read (.set first))
  | _, _, .call args, false, _, rfl => .call (args.read (.unset _))
  | _, _, .call args, true, _, .call first => .call (args.read (.set first))
  | _, _, .unary inner, _, _, first => by
    rw [first.eq_of_not_operand rfl]
    exact .unary (inner.read (.unset _))
  | _, _, .isNull inner, _, _, first => by
    rw [first.eq_of_not_operand rfl]
    exact .isNull (inner.read (.unset _))
  | _, _, .inQuery inner, _, _, first => by
    rw [first.eq_of_not_operand rfl]
    exact .inQuery (inner.read (.unset _))
  | _, _, .binary onRight onLeft left right, _, _, first => by
    rw [first.eq_of_not_operand rfl]
    exact .binary (renamed_across onLeft left) (renamed_across onRight right)
      (left.read onLeft) (right.read onRight)
  | _, _, .pattern onPattern subject, _, _, first => by
    rw [first.eq_of_not_operand rfl]
    exact .pattern subject.renamed (subject.read (.unset _)) onPattern.read
  | _, _, .inList onItems subject, _, _, first => by
    rw [first.eq_of_not_operand rfl]
    exact .inList subject.renamed (subject.read (.unset _)) onItems.read
  | _, _, .column, _, _, first => by
    rw [first.eq_of_not_operand rfl]
    exact readIndex_read _ _ _
  | _, _, .kept _, _, _, first => first.read

theorem ArgumentsSealed.read : ∀ {es₁ es₂ : List (Expr Nat)}, g.ArgumentsSealed scope es₁ es₂ →
    ∀ {compared : Bool} {es : List (Expr Nat)}, g.OperandsIndexedIf compared es es₁ →
      ArgumentsRead g.handler (g.Stands scope) compared es es₂
  | _, _, .nil, false, _, rfl => .nil
  | _, _, .nil, true, _, .nil => .nil
  | _, _, .cons head tail, false, _, rfl =>
    .cons (head.read (.unset _)) (tail.read (.unset _))
  | _, _, .cons head tail, true, _, .cons first rest =>
    .cons (head.read (.set first)) (tail.read (.set rest))

end

theorem FilterSealed.read {filter filter' : Option (Expr Nat)}
    (run : g.FilterSealed scope filter filter') :
    FilterRead g.handler (g.Stands scope) filter filter' := by
  cases run with
  | none => exact .refl _
  | some _ inner => exact .some (inner.read (.unset _))
  | kept _ => exact .refl _

end Sealing

end SealedColumns
