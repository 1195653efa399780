import SealedColumns.Proofs.Act
import SealedColumns.Proofs.Comparison
import SealedColumns.Proofs.Indexing
import SealedColumns.Proofs.Plaintext

/-!
What differs in a sealed predicate, and what each value is indexed for: only names of sensitive
columns and literals give way, no value is indexed twice, and the comparison above an indexed value
reads a sensitive column from its index column.
-/
namespace SealedColumns

open Sql

namespace Sql

mutual

theorem Expr.at?_operandsAt : ∀ (e : Expr Nat) {p : Place} {v : Value Nat}, (p, v) ∈ e.operandsAt →
    e.at? p = some (.value v)
  | .value _, p, v, member => by
    cases List.mem_singleton.mp member
    rfl
  | .nested e, p, v, member | .argument _ _ e, p, v, member => by
    obtain ⟨q, rfl, inner⟩ := mem_under.mp member
    exact Expr.at?_operandsAt e inner
  | .call _ _ args _ _, p, v, member => by
    obtain ⟨i, q, xs, rfl, found, inner⟩ := mem_spread.mp member
    obtain ⟨c, child, value⟩ := at?_operandsAtAll args found inner
    rw [Nat.zero_add, Expr.at?_cons, Expr.children, child]
    exact value
  | .column _ _, _, _, member | .unary _ _, _, _, member | .isNull _ _, _, _, member
  | .binary _ _ _, _, _, member | .pattern _ _ _ _ _, _, _, member | .inList _ _ _, _, _, member
  | .inQuery _ _ _, _, _, member | .star _, _, _, member | .existence _ _, _, _, member
  | .subquery _, _, _, member | .framed _ _, _, _, member => absurd member List.not_mem_nil

theorem at?_operandsAtAll : ∀ (es : List (Expr Nat)) {i : Nat} {xs : List (Place × Value Nat)}
    {p : Place} {v : Value Nat}, (operandsAtAll es)[i]? = some xs → (p, v) ∈ xs →
      ∃ c, es[i]? = some c ∧ c.at? p = some (.value v)
  | e :: _, 0, _, _, _, found, member => by
    cases found
    exact ⟨e, rfl, e.at?_operandsAt member⟩
  | _ :: es, i + 1, _, _, _, found, member => at?_operandsAtAll es (i := i) found member

end

theorem operandsAtAll_getElem? (es : List (Expr Nat)) (i : Nat) :
    (operandsAtAll es)[i]? = es[i]?.map Expr.operandsAt := by
  induction es generalizing i with
  | nil => rfl
  | cons e es ih =>
    cases i with
    | zero => rfl
    | succ i => exact ih i

/-- The node compares the child at the first index with the child at the second. -/
inductive Expr.Compares : Expr Nat → Nat → Nat → Prop where
  | right {l r : Expr Nat} {op : BinaryOp} : Compares (.binary l op r) 0 1
  | left {l r : Expr Nat} {op : BinaryOp} : Compares (.binary l op r) 1 0
  | pattern {kind : PatternKind} {negated : Bool} {e p : Expr Nat} {escape : Option Value} :
      Compares (.pattern kind negated e p escape) 0 1
  | item {negated : Bool} {e : Expr Nat} {items : List (Expr Nat)} {i : Nat} :
      Compares (.inList negated e items) 0 (i + 1)

def Value.shape : Value Nat → Value Nat
  | .string _ => .string ""
  | .number _ _ => .string ""
  | v => v

mutual

/-- An expression without the names of the columns and the texts of the literals that sealing a
predicate can come to. -/
def Expr.shape : Expr Nat → Expr Nat
  | .column qualifier name => .column qualifier { name with text := "" }
  | .value v => .value v.shape
  | .nested e => .nested e.shape
  | .unary op e => .unary op e.shape
  | .isNull negated e => .isNull negated e.shape
  | .binary l op r => .binary l.shape op r.shape
  | .pattern kind negated e p escape => .pattern kind negated e.shape p.shape escape
  | .inList negated e items => .inList negated e.shape (shapes items)
  | .inQuery negated e q => .inQuery negated e.shape q
  | .call name quantifier args clauses tail => .call name quantifier (shapes args) clauses tail
  | .argument name arrow e => .argument name arrow e.shape
  | e => e

def shapes : List (Expr Nat) → List (Expr Nat)
  | [] => []
  | e :: es => e.shape :: shapes es

end

end Sql

namespace Sealing

section Comparisons

variable (g : Sealing) (scope : List String)

/-- A value is indexed for a comparison above it: one side is a sensitive column, and its index
column `stands` in its place; the value is an operand of the other side. -/
inductive IndexedFor (stands : Place → Expr Nat → Prop) (e : Expr Nat) :
    Place → Value Nat → Prop where
  | compared (above below : Place) {node side : Expr Nat} {column operand : Nat}
      {qualifier : List Ident} {name : Ident} {c : SensitiveColumn} {v : Value Nat} :
      e.at? above = some node → node.Compares column operand →
      node.children[column]? = some (.column qualifier name) → g.Stands scope ⟨qualifier, name⟩ c →
      stands (above ++ [column]) (.column qualifier { name with text := c.index }) →
      node.children[operand]? = some side → (below, v) ∈ side.operandsAt →
        IndexedFor stands e (above ++ operand :: below) v

variable {g} {scope} {stands : Place → Expr Nat → Prop}

theorem IndexedFor.at? {e : Expr Nat} {p : Place} {v : Value Nat}
    (indexed : g.IndexedFor scope stands e p v) : e.at? p = some (.value v) := by
  obtain ⟨above, below, node, _, _, _, _, side, operand⟩ := indexed
  rw [Expr.at?_append, node, Option.bind_some, Expr.at?_cons, side, Option.bind_some]
  exact Expr.at?_operandsAt _ operand

theorem IndexedFor.under {e c : Expr Nat} {i : Nat} {p : Place} {v : Value Nat}
    (child : e.children[i]? = some c)
    (indexed : g.IndexedFor scope (fun p x => stands (i :: p) x) c p v) :
    g.IndexedFor scope stands e (i :: p) v := by
  obtain ⟨above, below, node, compares, column, entry, index, side, operand⟩ := indexed
  refine .compared (i :: above) below ?_ compares column entry index side operand
  rw [Expr.at?_cons, child]
  exact node

/-- An operand across from a sensitive column. -/
theorem IndexedFor.across {e side other : Expr Nat} {column operand : Nat} {p : Place}
    {v : Value Nat} (compares : e.Compares column operand)
    (across : e.children[column]? = some other) (sensitive : g.isSensitive scope other = true)
    (read : ∀ x ∈ g.readAt scope other, stands (column :: x.1) x.2)
    (here : e.children[operand]? = some side) (member : (p, v) ∈ side.operandsAt) :
    g.IndexedFor scope stands e (operand :: p) v := by
  obtain ⟨c, known⟩ := Option.isSome_iff_exists.mp sensitive
  obtain ⟨qualifier, name, rfl, entry⟩ := sensitive?_eq_some.mp known
  refine .compared [] p rfl compares across entry (read ([], _) ?_) here member
  simp [readAt, known]

theorem mem_operandsAtIf {indexed : Bool} {e : Expr Nat} {x : Place × Value Nat}
    (member : x ∈ operandsAtIf indexed e) : indexed = true ∧ x ∈ e.operandsAt := by
  cases indexed with
  | true => exact ⟨rfl, member⟩
  | false => cases member

theorem readAtAll_getElem? (es : List (Expr Nat)) (i : Nat) :
    (g.readAtAll scope es)[i]? = es[i]?.map (g.readAt scope) := by
  induction es generalizing i with
  | nil => rfl
  | cons e es ih =>
    cases i with
    | zero => rfl
    | succ i => exact ih i

mutual

theorem indexedFor_of_mem : ∀ (e : Expr Nat) (stands : Place → Expr Nat → Prop) {p : Place}
    {v : Value Nat}, (∀ x ∈ g.readAt scope e, stands x.1 x.2) → (p, v) ∈ g.indexedAt scope e →
      g.IndexedFor scope stands e p v
  | .nested e, _, p, v, read, member | .unary _ e, _, p, v, read, member
  | .isNull _ e, _, p, v, read, member | .inQuery _ e _, _, p, v, read, member
  | .argument _ _ e, _, p, v, read, member => by
    obtain ⟨q, rfl, inner⟩ := mem_under.mp member
    exact .under rfl (indexedFor_of_mem e _ (forall_mem_under.mp read) inner)
  | .binary l _ r, _, p, v, read, member => by
    obtain ⟨readL, readR⟩ := List.forall_mem_append.mp read
    have readL := forall_mem_under.mp readL
    have readR := forall_mem_under.mp readR
    simp only [indexedAt, List.mem_append] at member
    rcases member with ((onRight | onLeft) | left) | right
    · obtain ⟨q, rfl, inner⟩ := mem_under.mp onRight
      obtain ⟨indexed, operand⟩ := mem_operandsAtIf inner
      exact .across .right rfl (Bool.and_eq_true_iff.mp indexed).1 readL rfl operand
    · obtain ⟨q, rfl, inner⟩ := mem_under.mp onLeft
      obtain ⟨indexed, operand⟩ := mem_operandsAtIf inner
      exact .across .left rfl (Bool.and_eq_true_iff.mp indexed).1 readR rfl operand
    · obtain ⟨q, rfl, inner⟩ := mem_under.mp left
      exact .under rfl (indexedFor_of_mem l _ readL inner)
    · obtain ⟨q, rfl, inner⟩ := mem_under.mp right
      exact .under rfl (indexedFor_of_mem r _ readR inner)
  | .pattern _ _ e _ _, _, p, v, read, member => by
    have read := forall_mem_under.mp read
    rcases List.mem_append.mp member with onPattern | subject
    · obtain ⟨q, rfl, inner⟩ := mem_under.mp onPattern
      obtain ⟨indexed, operand⟩ := mem_operandsAtIf inner
      exact .across .pattern rfl indexed read rfl operand
    · obtain ⟨q, rfl, inner⟩ := mem_under.mp subject
      exact .under rfl (indexedFor_of_mem e _ read inner)
  | .inList _ e items, _, p, v, read, member => by
    have read := forall_mem_under.mp read
    rcases List.mem_append.mp member with onItems | subject
    · split at onItems
      · rename_i sensitive
        obtain ⟨i, q, xs, rfl, found, inner⟩ := mem_spread.mp onItems
        rw [operandsAtAll_getElem?] at found
        obtain ⟨item, listed, rfl⟩ := Option.map_eq_some_iff.mp found
        rw [Nat.add_comm]
        exact .across .item rfl sensitive read listed inner
      · cases onItems
    · obtain ⟨q, rfl, inner⟩ := mem_under.mp subject
      exact .under rfl (indexedFor_of_mem e _ read inner)
  | .call _ _ args _ _, stands, p, v, read, member => by
    obtain ⟨i, q, xs, rfl, found, inner⟩ := mem_spread.mp member
    rw [Nat.zero_add]
    obtain ⟨c, child, indexed⟩ := indexedFor_of_mem_all args stands
      (fun i c child x here => read (i :: x.1, x.2) (mem_spread.mpr ⟨i, x.1, g.readAt scope c,
        by rw [Nat.zero_add], by rw [readAtAll_getElem?, child]; rfl, here⟩)) found inner
    exact .under child indexed

theorem indexedFor_of_mem_all : ∀ (es : List (Expr Nat)) (stands : Place → Expr Nat → Prop)
    {i : Nat} {xs : List (Place × Value Nat)} {p : Place} {v : Value Nat},
    (∀ i c, es[i]? = some c → ∀ x ∈ g.readAt scope c, stands (i :: x.1) x.2) →
    (g.indexedAtAll scope es)[i]? = some xs → (p, v) ∈ xs →
      ∃ c, es[i]? = some c ∧ g.IndexedFor scope (fun p x => stands (i :: p) x) c p v
  | e :: _, _, 0, _, _, _, read, found, member => by
    cases found
    exact ⟨e, rfl, indexedFor_of_mem e _ (read 0 e rfl) member⟩
  | _ :: es, stands, i + 1, _, _, _, read, found, member =>
    indexedFor_of_mem_all es (fun p x => stands (p.modifyHead (· + 1)) x)
      (fun i c child => read (i + 1) c child) (i := i) found member

end

/-- Where a predicate reads an index column, a sensitive column stood. -/
inductive ReadFor (g : Sealing) (scope : List String) (e : Expr Nat) : Place → Expr Nat → Prop where
  | column {p : Place} {qualifier : List Ident} {name : Ident} {c : SensitiveColumn} :
      e.at? p = some (.column qualifier name) → g.Stands scope ⟨qualifier, name⟩ c →
        ReadFor g scope e p (.column qualifier { name with text := c.index })

theorem ReadFor.under {e c : Expr Nat} {i : Nat} {p : Place} {x : Expr Nat}
    (child : e.children[i]? = some c) (read : g.ReadFor scope c p x) :
    g.ReadFor scope e (i :: p) x := by
  obtain ⟨here, entry⟩ := read
  refine .column ?_ entry
  rw [Expr.at?_cons, child]
  exact here

mutual

theorem readFor_of_mem : ∀ (e : Expr Nat) {p : Place} {x : Expr Nat},
    (p, x) ∈ g.readAt scope e → g.ReadFor scope e p x
  | .nested e, p, x, member | .unary _ e, p, x, member | .isNull _ e, p, x, member
  | .inQuery _ e _, p, x, member | .argument _ _ e, p, x, member | .pattern _ _ e _ _, p, x, member
  | .inList _ e _, p, x, member => by
    obtain ⟨q, rfl, inner⟩ := mem_under.mp member
    exact .under rfl (readFor_of_mem e inner)
  | .binary l _ r, p, x, member => by
    rcases List.mem_append.mp member with left | right
    · obtain ⟨q, rfl, inner⟩ := mem_under.mp left
      exact .under rfl (readFor_of_mem l inner)
    · obtain ⟨q, rfl, inner⟩ := mem_under.mp right
      exact .under rfl (readFor_of_mem r inner)
  | .call _ _ args _ _, p, x, member => by
    obtain ⟨i, q, xs, rfl, found, inner⟩ := mem_spread.mp member
    rw [Nat.zero_add]
    obtain ⟨c, child, read⟩ := readFor_of_mem_all args found inner
    exact .under child read
  | .column qualifier name, p, x, member => by
    unfold readAt at member
    split at member
    · rename_i c known
      cases List.mem_singleton.mp member
      obtain ⟨_, _, same, entry⟩ := sensitive?_eq_some.mp known
      cases same
      exact .column rfl entry
    · cases member

theorem readFor_of_mem_all : ∀ (es : List (Expr Nat)) {i : Nat} {xs : List (Place × Expr Nat)}
    {p : Place} {x : Expr Nat}, (g.readAtAll scope es)[i]? = some xs → (p, x) ∈ xs →
      ∃ c, es[i]? = some c ∧ g.ReadFor scope c p x
  | e :: _, 0, _, _, _, found, member => by
    cases found
    exact ⟨e, rfl, readFor_of_mem e member⟩
  | _ :: es, i + 1, _, _, _, found, member => readFor_of_mem_all es (i := i) found member

end

end Comparisons

section Shapes

variable {g : Sealing} {scope : List String}

theorem ValueIndexed.shape {v v' : Value Nat} (indexed : g.ValueIndexed v v') :
    v'.shape = v.shape := by
  cases indexed with
  | kept _ => rfl
  | literal known _ =>
    unfold Operand.ofValue? at known
    split at known <;> first | rfl | cases known

mutual

theorem OperandIndexed.shape : ∀ {e e' : Expr Nat}, g.OperandIndexed e e' → e'.shape = e.shape
  | _, _, .value value => by simp only [Expr.shape, value.shape]
  | _, _, .nested inner | _, _, .argument inner => by simp only [Expr.shape, inner.shape]
  | _, _, .call args => by simp only [Expr.shape, args.shape]
  | _, _, .kept _ => rfl

theorem OperandsIndexed.shape : ∀ {es es' : List (Expr Nat)}, g.OperandsIndexed es es' →
    shapes es' = shapes es
  | _, _, .nil => rfl
  | _, _, .cons head tail => by simp only [shapes, head.shape, tail.shape]

end

theorem OperandIndexedIf.shape {indexed : Bool} {e e' : Expr Nat}
    (run : g.OperandIndexedIf indexed e e') : e'.shape = e.shape := by
  cases indexed with
  | true => exact OperandIndexed.shape run
  | false => exact congrArg Expr.shape run

theorem OperandsIndexedIf.shape {indexed : Bool} {es es' : List (Expr Nat)}
    (run : g.OperandsIndexedIf indexed es es') : shapes es' = shapes es := by
  cases indexed with
  | true => exact OperandsIndexed.shape run
  | false => exact congrArg shapes run

theorem shape_readIndex (e : Expr Nat) : (g.readIndex scope e).shape = e.shape := by
  unfold readIndex
  split
  · cases e <;> rfl
  · rfl

mutual

theorem PredicateSealed.shape : ∀ {e e' : Expr Nat}, g.PredicateSealed scope e e' →
    e'.shape = e.shape
  | _, _, .nested inner | _, _, .unary inner | _, _, .isNull inner | _, _, .inQuery inner
  | _, _, .argument inner => by simp only [Expr.shape, inner.shape]
  | _, _, .binary right left sealedL sealedR => by
    simp only [Expr.shape, sealedL.shape, sealedR.shape, left.shape, right.shape]
  | _, _, .pattern operand subject => by
    simp only [Expr.shape, subject.shape, operand.shape]
  | _, _, .inList operands subject => by
    simp only [Expr.shape, subject.shape, operands.shape]
  | _, _, .call args => by simp only [Expr.shape, args.shape]
  | _, _, .column => shape_readIndex _
  | _, _, .kept _ => rfl

theorem ArgumentsSealed.shape : ∀ {es es' : List (Expr Nat)}, g.ArgumentsSealed scope es es' →
    shapes es' = shapes es
  | _, _, .nil => rfl
  | _, _, .cons head tail => by simp only [shapes, head.shape, tail.shape]

end

end Shapes

section Readings

variable {g : Sealing} {d d' : Draft}

/-- No name that is still to come is the root of a property of the input. -/
def Apart (g : Sealing) (d : Draft) : Prop :=
  ∀ i, d.supply.named ≤ i → ∀ m ∈ g.inputs, (Property.splitRoot m.property).1 ≠ d.supply.name i

/-- The input reads what it read before, and new names stay apart from it. -/
structure Reads (g : Sealing) (d d' : Draft) : Prop where
  apart : g.Apart d'
  same : ∀ m ∈ g.inputs, d'.parameters.valueOf m = d.parameters.valueOf m

theorem Reads.refl (apart : g.Apart d) : g.Reads d d := ⟨apart, fun _ _ => rfl⟩

theorem Reads.trans {d'' : Draft} (first : g.Reads d d') (second : g.Reads d' d'') :
    g.Reads d d'' :=
  ⟨second.apart, fun m input => (second.same m input).trans (first.same m input)⟩

theorem indexPlaceholder_reads {n : Nat} (apart : g.Apart d)
    (run : (g.indexPlaceholder n).Gives d () d') : g.Reads d d' := by
  obtain ⟨m, plain, -, -, ⟨-, rfl⟩ | ⟨text, index, -, -, supply, change⟩⟩ := compare_cases run
  · exact .refl apart
  · have later : g.Apart d' := by
      rw [Apart, supply]
      exact fun i later => apart i (Nat.le_of_succ_le later)
    refine ⟨later, fun m input => ?_⟩
    obtain ⟨-, same⟩ | ⟨before, slot, behind, -, after⟩ := change
    · rw [same]
    · rw [after]
      refine Parameters.valueOf_congr rfl ?_
      exact (Members.get?_insert _ _ _ _).trans (if_neg (apart _ (Nat.le_refl _) m input))

theorem indexAt_reads {x : Place × Value Nat} {y : Place × Expr Nat} (apart : g.Apart d)
    (run : (g.indexAt x).Gives d y d') : g.Reads d d' := by
  simp only [indexAt, Seal.gives_bind, Seal.gives_pure] at run
  obtain ⟨v, _, first, rfl, rfl⟩ := run
  unfold indexValue at first
  split at first
  · simp only [Seal.gives_bind, Seal.gives_pure] at first
    obtain ⟨_, _, placeholder, -, rfl⟩ := first
    exact indexPlaceholder_reads apart placeholder
  · simp only [Seal.gives_bind, gives_index, Seal.gives_pure] at first
    obtain ⟨_, _, ⟨-, rfl⟩, -, rfl⟩ := first
    exact .refl apart
  · rw [Seal.gives_pure] at first
    exact first.2 ▸ .refl apart
  · rw [Seal.gives_pure] at first
    exact first.2 ▸ .refl apart

theorem indexAll_reads {xs : List (Place × Value Nat)} {ys : List (Place × Expr Nat)}
    (apart : g.Apart d) (run : (xs.mapM g.indexAt).Gives d ys d') : g.Reads d d' := by
  induction xs generalizing ys d with
  | nil =>
    simp only [List.mapM_nil, Seal.gives_pure] at run
    exact run.2 ▸ .refl apart
  | cons x xs ih =>
    simp only [List.mapM_cons, Seal.gives_bind, Seal.gives_pure] at run
    obtain ⟨y, _, first, rest, _, second, -, rfl⟩ := run
    have here := indexAt_reads apart first
    exact here.trans (ih here.apart second)

/-- What the calls give: each value has its place, and only a literal gives way. -/
def Results (g : Sealing) : List (Place × Value Nat) → List (Place × Expr Nat) → Prop :=
  List.Forall₂ fun x y => ∃ v, y = (x.1, Expr.value v) ∧ g.ValueIndexed x.2 v

theorem indexAll_results {xs : List (Place × Value Nat)} {ys : List (Place × Expr Nat)}
    (run : (xs.mapM g.indexAt).Gives d ys d') : g.Results xs ys := by
  refine (Seal.gives_mapM run).imp fun x y ⟨_, _, step⟩ => ?_
  simp only [indexAt, Seal.gives_bind, Seal.gives_pure] at step
  obtain ⟨v, _, indexed, rfl, rfl⟩ := step
  exact ⟨v, rfl, indexValue_indexed indexed⟩

end Readings

/-- A predicate is sealed from a draft with one call at most for each value, and nothing else gives
way than literals that are indexed and names of sensitive columns. -/
structure SealedOnce (g : Sealing) (scope : List String) (d : Draft) (e e' : Expr Nat) : Prop where
  /-- The whole pass is a row of calls, and then a change of the tree at their places and at the
  columns. -/
  calls : g.sealPredicate scope e =
    (fun xs => e.putAll (xs ++ g.readAt scope e)) <$> (g.indexedAt scope e).mapM g.indexAt
  /-- No place has two calls. -/
  once : ((g.indexedAt scope e).map Prod.fst).Nodup
  /-- A call is for the value that the predicate has at the place, and a comparison is the
  reason. -/
  reason : ∀ x ∈ g.indexedAt scope e, e.at? x.1 = some (.value x.2) ∧
    g.IndexedFor scope (fun p x => e'.at? p = some x) e x.1 x.2
  /-- Whatever calls are done, placeholders read what they read at the start. -/
  originals : ∀ done rest, g.indexedAt scope e = done ++ rest → ∀ ys d',
    (done.mapM g.indexAt).Gives d ys d' →
      ∀ m ∈ g.inputs, d'.parameters.valueOf m = d.parameters.valueOf m
  shape : e'.shape = e.shape
  columns : ∀ p qualifier name, e.at? p = some (.column qualifier name) →
    e'.at? p = some (.column qualifier name) ∨
      ∃ c, g.Stands scope ⟨qualifier, name⟩ c ∧
        e'.at? p = some (.column qualifier { name with text := c.index })
  values : ∀ p v, e.at? p = some (.value v) → e'.at? p = some (.value v) ∨
    ∃ text index, (p, v) ∈ g.indexedAt scope e ∧ Operand.ofValue? v = some (.literal text) ∧
      g.handler.index text = .ok index ∧ e'.at? p = some (.value (.string index))

section Whole

variable {g : Sealing} {scope : List String} {d d' : Draft} {e e' : Expr Nat}
  {xs : List (Place × Value Nat)} {ys : List (Place × Expr Nat)}

theorem Results.places (results : g.Results xs ys) : ys.map Prod.fst = xs.map Prod.fst := by
  induction results with
  | nil => rfl
  | cons here _ ih =>
    obtain ⟨v, rfl, -⟩ := here
    rw [List.map_cons, List.map_cons, ih]

/-- What gives way in a predicate, and to what: an indexed value, or a sensitive column. -/
inductive Change (g : Sealing) (scope : List String) (e : Expr Nat) : Place → Expr Nat → Prop where
  | value {p : Place} {v v' : Value Nat} : (p, v) ∈ g.indexedAt scope e →
      e.at? p = some (.value v) → g.ValueIndexed v v' → Change g scope e p (.value v')
  | column {p : Place} {x : Expr Nat} : g.ReadFor scope e p x → Change g scope e p x

theorem Change.leaf {p : Place} {x : Expr Nat} (change : Change g scope e p x) :
    x.children = [] ∧ ∃ leaf, e.LeafAt p leaf := by
  cases change with
  | value _ here _ => exact ⟨rfl, _, here, rfl⟩
  | column read =>
    obtain ⟨here, -⟩ := read
    exact ⟨rfl, _, here, rfl⟩

theorem at?_indexedAt {p : Place} {v : Value Nat} (member : (p, v) ∈ g.indexedAt scope e) :
    e.at? p = some (.value v) :=
  (indexedFor_of_mem e (fun _ _ => True) (fun _ _ => trivial) member).at?

theorem Results.change (results : g.Results (g.indexedAt scope e) ys) :
    ∀ x ∈ ys ++ g.readAt scope e, Change g scope e x.1 x.2 := by
  rintro ⟨p, x⟩ member
  rcases List.mem_append.mp member with result | read
  · obtain ⟨⟨_, v⟩, listed, v', same, indexed⟩ := exists_of_mem_right results result
    cases same
    exact .value listed (at?_indexedAt listed) indexed
  · exact .column (readFor_of_mem e read)

/-- No two changes are at one place: a value is no column. -/
theorem Results.distinct (results : g.Results (g.indexedAt scope e) ys) :
    ((ys ++ g.readAt scope e).map Prod.fst).Nodup := by
  rw [List.map_append, results.places]
  refine List.nodup_append.mpr ⟨?_, nodup_of_tally (g.tally_readAt scope e), ?_⟩
  · exact nodup_of_tally fun p => Nat.le_trans (Nat.le_add_left _ _) (g.tally_indexedAt scope e p)
  · rintro p indexed _ read rfl
    obtain ⟨⟨_, v⟩, listed, rfl⟩ := List.mem_map.mp indexed
    obtain ⟨⟨_, x⟩, found, rfl⟩ := List.mem_map.mp read
    obtain ⟨column, -⟩ := readFor_of_mem e found
    cases (at?_indexedAt listed).symm.trans column

end Whole

theorem predicate_sealed_once {g : Sealing} {scope : List String} {e e' : Expr Nat} {d d' : Draft}
    (apart : g.Apart d) (run : (g.sealPredicate scope e).Gives d e' d') :
    g.SealedOnce scope d e e' := by
  have whole := run
  rw [sealPredicate_eq, map_eq_pure_bind, Seal.gives_bind] at whole
  obtain ⟨ys, _, calls, whole⟩ := whole
  obtain ⟨rfl, rfl⟩ := (Seal.gives_pure _ _ _ _).mp whole
  have results := indexAll_results calls
  generalize changed : ys ++ g.readAt scope e = changes at run
  have change : ∀ x ∈ changes, Change g scope e x.1 x.2 := changed ▸ results.change
  have distinct : (changes.map Prod.fst).Nodup := changed ▸ results.distinct
  have found : ∀ x ∈ changes, (e.putAll changes).at? x.1 = some x.2 := fun x member =>
    Expr.at?_putAll (fun x member => (change x member).leaf) distinct member
  have kept : ∀ p leaf, e.LeafAt p leaf → p ∉ changes.map Prod.fst →
      (e.putAll changes).at? p = some leaf := fun p leaf here other =>
    (here.putAll_other (fun x member => (change x member).leaf.2) distinct other).1
  refine ⟨sealPredicate_eq g scope e, ?_, fun x member => ?_, ?_, ?_, ?_, ?_⟩
  · exact nodup_of_tally fun p => Nat.le_trans (Nat.le_add_left _ _) (g.tally_indexedAt scope e p)
  · have read : ∀ y ∈ g.readAt scope e, (e.putAll changes).at? y.1 = some y.2 := fun y member =>
      found y (changed ▸ List.mem_append_right _ member)
    have reason := indexedFor_of_mem e (fun p x => (e.putAll changes).at? p = some x) read
      member
    exact ⟨reason.at?, reason⟩
  · intro done rest split zs d₁ before
    exact (indexAll_reads apart before).same
  · exact (sealPredicate_sealed scope e run).shape
  · intro p qualifier name here
    by_cases member : p ∈ changes.map Prod.fst
    · obtain ⟨⟨_, x⟩, listed, rfl⟩ := List.mem_map.mp member
      have there := found _ listed
      cases change _ listed with
      | value _ value _ => cases here.symm.trans value
      | column read =>
        obtain ⟨column, entry⟩ := read
        cases here.symm.trans column
        exact .inr ⟨_, entry, there⟩
    · exact .inl (kept p _ ⟨here, rfl⟩ member)
  · intro p v here
    by_cases member : p ∈ changes.map Prod.fst
    · obtain ⟨⟨_, x⟩, listed, rfl⟩ := List.mem_map.mp member
      have there := found _ listed
      cases change _ listed with
      | value called value indexed =>
        cases here.symm.trans value
        cases indexed with
        | literal known answer => exact .inr ⟨_, _, called, known, answer, there⟩
        | kept _ => exact .inl there
      | column read =>
        obtain ⟨column, -⟩ := read
        cases here.symm.trans column
    · exact .inl (kept p _ ⟨here, rfl⟩ member)

end Sealing

namespace Sample

/-- `email = lower(('A')) AND ? = email`, with what stands for the column and the literal. -/
def nestedComparison (column text : String) : Expr Nat :=
  .binary
    (.binary (.column [] (.bare column)) .equal
      (.call [.bare "lower"] none [.nested (.value (.string text))] [] []))
    .and
    (.binary (.value (.placeholder (.numbered 1))) .equal (.column [] (.bare column)))

end Sample

open Sample Sealing in
theorem predicate_sealed_once_users :
    sealing.Apart (draftOf bound supply) ∧
    sealing.indexedAt [] (nestedComparison "email" "A") =
      [([0, 1, 0, 0], .string "A"), ([1, 0], .placeholder (.numbered 1))] ∧
    sealing.SealedOnce [] (draftOf bound supply) (nestedComparison "email" "A")
      (nestedComparison "email_idx" "~A") := by
  have apart : sealing.Apart (draftOf bound supply) := fresh.roots
  have run : (sealing.sealPredicate [] (nestedComparison "email" "A")).Gives (draftOf bound supply)
      (nestedComparison "email_idx" "~A")
      ((sealing.sealPredicate [] (nestedComparison "email" "A")).run (draftOf bound supply)).2 := by
    with_unfolding_all rfl
  exact ⟨apart, by rfl, predicate_sealed_once apart run⟩

end SealedColumns
