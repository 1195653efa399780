import Mathlib.Data.List.Basic
import SealedColumns.Sql.Syntax

/-!
Places in an expression: a path says at each node which child to go on with. The children are those
that sealing a predicate can look into; subqueries and the other parts of a node are not among them.
-/
namespace SealedColumns.Sql

variable {ν α : Type}

abbrev Place := List Nat

namespace Expr

def children : Expr ν → List (Expr ν)
  | .nested e => [e]
  | .unary _ e => [e]
  | .isNull _ e => [e]
  | .binary l _ r => [l, r]
  | .pattern _ _ e p _ => [e, p]
  | .inList _ e items => e :: items
  | .inQuery _ e _ => [e]
  | .call _ _ args _ _ => args
  | .argument _ _ e => [e]
  | _ => []

def onChild (f : Expr ν → Expr ν) : Nat → Expr ν → Expr ν
  | 0, .nested e => .nested (f e)
  | 0, .unary op e => .unary op (f e)
  | 0, .isNull negated e => .isNull negated (f e)
  | 0, .binary l op r => .binary (f l) op r
  | 1, .binary l op r => .binary l op (f r)
  | 0, .pattern kind negated e p escape => .pattern kind negated (f e) p escape
  | 1, .pattern kind negated e p escape => .pattern kind negated e (f p) escape
  | 0, .inList negated e items => .inList negated (f e) items
  | i + 1, .inList negated e items => .inList negated e (items.modify i f)
  | 0, .inQuery negated e q => .inQuery negated (f e) q
  | i, .call name quantifier args clauses tail =>
    .call name quantifier (args.modify i f) clauses tail
  | 0, .argument name arrow e => .argument name arrow (f e)
  | _, e => e

/-- What stands at a path. -/
def at? : Place → Expr ν → Option (Expr ν)
  | [], e => some e
  | i :: p, e => e.children[i]?.bind (at? p)

/-- The expression with another one at a path. -/
def put : Expr ν → Place → Expr ν → Expr ν
  | _, [], x => x
  | e, i :: p, x => e.onChild (fun c => c.put p x) i

def putAll (e : Expr ν) (xs : List (Place × Expr ν)) : Expr ν :=
  xs.foldl (fun e x => e.put x.1 x.2) e

end Expr

/-- Places in a child, as places in its parent. -/
def under (i : Nat) (xs : List (Place × α)) : List (Place × α) := xs.map fun x => (i :: x.1, x.2)

/-- Places in a row of children, of which the first one stands at `first`. -/
def spread (first : Nat) : List (List (Place × α)) → List (Place × α)
  | [] => []
  | xs :: xss => under first xs ++ spread (first + 1) xss

def putEach : List (List (Place × Expr ν)) → List (Expr ν) → List (Expr ν)
  | xs :: xss, e :: es => e.putAll xs :: putEach xss es
  | _, es => es

section Places

@[simp] theorem under_cons (i : Nat) (x : Place × α) (xs : List (Place × α)) :
    under i (x :: xs) = (i :: x.1, x.2) :: under i xs := rfl

theorem mem_under {i : Nat} {xs : List (Place × α)} {p : Place} {a : α} :
    (p, a) ∈ under i xs ↔ ∃ q, p = i :: q ∧ (q, a) ∈ xs := by
  simp only [under, List.mem_map, Prod.mk.injEq, Prod.exists]
  constructor
  · rintro ⟨q, _, member, rfl, rfl⟩
    exact ⟨q, rfl, member⟩
  · rintro ⟨q, rfl, member⟩
    exact ⟨q, a, member, rfl, rfl⟩

theorem forall_mem_under {i : Nat} {xs : List (Place × α)} {P : Place × α → Prop} :
    (∀ x ∈ under i xs, P x) ↔ ∀ x ∈ xs, P (i :: x.1, x.2) := List.forall_mem_map

theorem mem_spread {first : Nat} {xss : List (List (Place × α))} {p : Place} {a : α} :
    (p, a) ∈ spread first xss ↔
      ∃ i q xs, p = (first + i) :: q ∧ xss[i]? = some xs ∧ (q, a) ∈ xs := by
  induction xss generalizing first with
  | nil => simp [spread]
  | cons xs xss ih =>
    rw [spread, List.mem_append, mem_under, ih]
    constructor
    · rintro (⟨q, rfl, member⟩ | ⟨i, q, ys, rfl, found, member⟩)
      · exact ⟨0, q, xs, rfl, rfl, member⟩
      · exact ⟨i + 1, q, ys, by rw [Nat.add_assoc, Nat.add_comm 1], found, member⟩
    · rintro ⟨_ | i, q, ys, rfl, found, member⟩
      · cases found
        exact .inl ⟨q, rfl, member⟩
      · exact .inr ⟨i, q, ys, by rw [Nat.add_assoc, Nat.add_comm 1], found, member⟩

/-- How often a path is a place. -/
def tally (p : Place) (xs : List (Place × α)) : Nat := (xs.map Prod.fst).count p

@[simp] theorem tally_nil (p : Place) : tally p ([] : List (Place × α)) = 0 := rfl

@[simp] theorem tally_append (p : Place) (xs ys : List (Place × α)) :
    tally p (xs ++ ys) = tally p xs + tally p ys := by
  simp only [tally, List.map_append, List.count_append]

@[simp] theorem tally_root_under (i : Nat) (xs : List (Place × α)) : tally [] (under i xs) = 0 := by
  simp only [tally, List.count_eq_zero, under, List.mem_map, not_exists, not_and]
  rintro _ ⟨_, _, rfl⟩
  exact List.cons_ne_nil _ _

@[simp] theorem tally_under (i j : Nat) (p : Place) (xs : List (Place × α)) :
    tally (j :: p) (under i xs) = if i = j then tally p xs else 0 := by
  induction xs with
  | nil => simp [tally, under]
  | cons x xs ih =>
    simp only [tally, under, List.map_cons, List.count_cons, List.cons_beq_cons] at ih ⊢
    rw [ih]
    by_cases here : i = j
    · simp [here]
    · simp [here]

@[simp] theorem tally_root_spread (first : Nat) (xss : List (List (Place × α))) :
    tally [] (spread first xss) = 0 := by
  induction xss generalizing first with
  | nil => rfl
  | cons xs xss ih => rw [spread, tally_append, tally_root_under, ih]

theorem tally_spread_before {first j : Nat} (before : j < first) (p : Place)
    (xss : List (List (Place × α))) : tally (j :: p) (spread first xss) = 0 := by
  induction xss generalizing first with
  | nil => rfl
  | cons xs xss ih =>
    have other : first ≠ j := by omega
    rw [spread, tally_append, tally_under, if_neg other, ih (by omega)]

theorem tally_spread (first i : Nat) (p : Place) (xss : List (List (Place × α))) :
    tally ((first + i) :: p) (spread first xss) = tally p (xss[i]?.getD []) := by
  induction xss generalizing first i with
  | nil => rfl
  | cons xs xss ih =>
    rw [spread, tally_append, tally_under]
    cases i with
    | zero => simp [tally_spread_before]
    | succ i =>
      have other : first ≠ first + (i + 1) := by omega
      have place : first + (i + 1) = first + 1 + i := by omega
      rw [if_neg other, place, ih, Nat.zero_add, List.getElem?_cons_succ]

/-- Lists with no path twice, from a bound on the tallies. -/
theorem nodup_of_tally {xs : List (Place × α)} (once : ∀ p, tally p xs ≤ 1) :
    (xs.map Prod.fst).Nodup := List.nodup_iff_count.mpr once

end Places

namespace Expr

@[simp] theorem children_onChild (f : Expr ν → Expr ν) (i : Nat) (e : Expr ν) :
    (e.onChild f i).children = e.children.modify i f := by
  rcases i with _ | _ | i <;> cases e <;> simp [onChild, children]

theorem onChild_id (i : Nat) (e : Expr ν) : e.onChild (fun c => c) i = e := by
  have kept (i : Nat) (es : List (Expr ν)) : (es.modify i fun c => c) = es := List.modify_id i es
  rcases i with _ | _ | i <;> cases e <;> simp [onChild, kept]

theorem onChild_onChild (f f' : Expr ν → Expr ν) (i : Nat) (e : Expr ν) :
    (e.onChild f i).onChild f' i = e.onChild (fun c => f' (f c)) i := by
  have twice (i : Nat) (es : List (Expr ν)) :
      (es.modify i f).modify i f' = es.modify i fun c => f' (f c) := List.modify_modify_eq f f' i es
  rcases i with _ | _ | i <;> cases e <;> simp [onChild, twice]

theorem at?_cons (i : Nat) (p : Place) (e : Expr ν) :
    e.at? (i :: p) = e.children[i]?.bind (at? p) := rfl

theorem at?_append (p q : Place) (e : Expr ν) : e.at? (p ++ q) = (e.at? p).bind (at? q) := by
  induction p generalizing e with
  | nil => rfl
  | cons i p ih =>
    rw [List.cons_append, at?_cons, at?_cons, Option.bind_assoc]
    exact congrArg _ (funext ih)

theorem at?_put_self {e : Expr ν} {p : Place} (there : (e.at? p).isSome) (x : Expr ν) :
    (e.put p x).at? p = some x := by
  induction p generalizing e with
  | nil => rfl
  | cons i p ih =>
    obtain ⟨y, there⟩ := Option.isSome_iff_exists.mp there
    obtain ⟨c, child, below⟩ := Option.bind_eq_some_iff.mp there
    rw [put, at?_cons, children_onChild, List.getElem?_modify_eq, child]
    exact ih (Option.isSome_iff_exists.mpr ⟨y, below⟩)

/-- There is an expression without children at the path. -/
def LeafAt (e : Expr ν) (p : Place) (leaf : Expr ν) : Prop :=
  e.at? p = some leaf ∧ leaf.children = []

theorem LeafAt.below {e leaf : Expr ν} {i : Nat} {p : Place} (here : e.LeafAt (i :: p) leaf) :
    ∃ c, e.children[i]? = some c ∧ c.LeafAt p leaf := by
  obtain ⟨c, child, below⟩ := Option.bind_eq_some_iff.mp here.1
  exact ⟨c, child, below, here.2⟩

theorem LeafAt.root {e leaf leaf' : Expr ν} (root : e.LeafAt [] leaf) (i : Nat) (p : Place) :
    ¬ e.LeafAt (i :: p) leaf' := by
  intro below
  obtain ⟨c, child, -⟩ := below.below
  cases root.1
  rw [root.2] at child
  cases child

/-- What is put at a leaf leaves the other leaves. -/
theorem LeafAt.put_other {e leaf leaf' : Expr ν} {p q : Place} (there : e.LeafAt q leaf')
    (here : e.LeafAt p leaf) (other : q ≠ p) (x : Expr ν) : (e.put p x).LeafAt q leaf' := by
  induction p generalizing e q with
  | nil =>
    cases q with
    | nil => exact absurd rfl other
    | cons j q => exact absurd there (here.root j q)
  | cons i p ih =>
    cases q with
    | nil => exact absurd here (there.root i p)
    | cons j q =>
      refine ⟨?_, there.2⟩
      rw [put, at?_cons, children_onChild]
      by_cases same : i = j
      · subst same
        obtain ⟨c, child, here⟩ := here.below
        obtain ⟨_, child', there⟩ := there.below
        cases child.symm.trans child'
        rw [List.getElem?_modify_eq, child]
        exact (ih there here (fun same => other (same ▸ rfl))).1
      · rw [List.getElem?_modify_ne _ _ same]
        exact there.1

@[simp] theorem putAll_nil (e : Expr ν) : e.putAll [] = e := rfl

theorem putAll_append (e : Expr ν) (xs ys : List (Place × Expr ν)) :
    e.putAll (xs ++ ys) = (e.putAll xs).putAll ys := List.foldl_append

/-- Where leaves give way to other things at distinct places, the other leaves stay. -/
theorem LeafAt.putAll_other {e leaf : Expr ν} {q : Place} {xs : List (Place × Expr ν)}
    (there : e.LeafAt q leaf) (leaves : ∀ x ∈ xs, ∃ leaf, e.LeafAt x.1 leaf)
    (distinct : (xs.map Prod.fst).Nodup) (other : q ∉ xs.map Prod.fst) :
    (e.putAll xs).LeafAt q leaf := by
  induction xs generalizing e with
  | nil => exact there
  | cons x xs ih =>
    rw [List.map_cons] at distinct other
    obtain ⟨apart, distinct⟩ := List.nodup_cons.mp distinct
    obtain ⟨leaf', here⟩ := leaves x List.mem_cons_self
    refine ih (there.put_other here (fun same => other (same ▸ List.mem_cons_self)) x.2) ?_ distinct
      fun member => other (List.mem_cons_of_mem _ member)
    intro y member
    obtain ⟨leaf'', place⟩ := leaves y (List.mem_cons_of_mem _ member)
    exact ⟨leaf'', place.put_other here
      (fun same => apart (same ▸ List.mem_map_of_mem member)) x.2⟩

/-- And what gives way to a leaf is found at its place. -/
theorem at?_putAll {e : Expr ν} {xs : List (Place × Expr ν)}
    (leaves : ∀ x ∈ xs, x.2.children = [] ∧ ∃ leaf, e.LeafAt x.1 leaf)
    (distinct : (xs.map Prod.fst).Nodup) {p : Place} {x : Expr ν} (member : (p, x) ∈ xs) :
    (e.putAll xs).at? p = some x := by
  induction xs generalizing e with
  | nil => cases member
  | cons y xs ih =>
    rw [List.map_cons] at distinct
    obtain ⟨apart, rest⟩ := List.nodup_cons.mp distinct
    obtain ⟨childless, leaf, here⟩ := leaves y List.mem_cons_self
    have later : ∀ z ∈ xs, z.2.children = [] ∧ ∃ leaf, (e.put y.1 y.2).LeafAt z.1 leaf := by
      intro z member
      obtain ⟨childless, leaf', place⟩ := leaves z (List.mem_cons_of_mem _ member)
      exact ⟨childless, leaf', place.put_other here
        (fun same => apart (same ▸ List.mem_map_of_mem member)) y.2⟩
    rcases List.mem_cons.mp member with rfl | member
    · have new : (e.put p x).LeafAt p x :=
        ⟨at?_put_self (Option.isSome_iff_exists.mpr ⟨leaf, here.1⟩) x, childless⟩
      exact (new.putAll_other (fun z member => (later z member).2) rest apart).1
    · exact ih later rest member

theorem putAll_under (e : Expr ν) (i : Nat) (xs : List (Place × Expr ν)) :
    e.putAll (under i xs) = e.onChild (fun c => c.putAll xs) i := by
  induction xs generalizing e with
  | nil => exact (onChild_id i e).symm
  | cons x xs ih =>
    change (e.put (i :: x.1) x.2).putAll (under i xs) = _
    rw [ih, put, onChild_onChild]
    rfl

/-- Putting at places in a row of children, where `wrap` is the node around them. -/
theorem putAll_spread (wrap : List (Expr ν) → Expr ν) {first : Nat}
    (inside : ∀ f i es, (wrap es).onChild f (first + i) = wrap (es.modify i f))
    (xss : List (List (Place × Expr ν))) (es : List (Expr ν)) :
    (wrap es).putAll (spread first xss) = wrap (putEach xss es) := by
  induction xss generalizing wrap first es with
  | nil => rfl
  | cons xs xss ih =>
    have head := inside (fun c => c.putAll xs) 0
    rw [spread, putAll_append, putAll_under, ← Nat.add_zero first, head, Nat.add_zero]
    have place (i : Nat) : first + 1 + i = first + (i + 1) := by omega
    cases es with
    | nil =>
      rw [List.modify_nil]
      exact ih (fun _ => wrap []) (fun f i _ => by rw [place, inside, List.modify_nil]) []
    | cons e es =>
      rw [List.modify_zero_cons]
      exact ih (fun rest => wrap (e.putAll xs :: rest))
        (fun f i rest => by rw [place, inside, List.modify_succ_cons]) es

theorem putAll_arguments (name : Name) (quantifier : Option Quantifier)
    (args clauses tail : List (Expr ν)) (xss : List (List (Place × Expr ν))) :
    (Expr.call name quantifier args clauses tail).putAll (spread 0 xss) =
      .call name quantifier (putEach xss args) clauses tail := by
  refine putAll_spread (fun args => .call name quantifier args clauses tail) ?_ xss args
  intro f i es
  rw [Nat.zero_add]
  rcases i with _ | _ | i <;> rfl

theorem putAll_items (negated : Bool) (e : Expr ν) (items : List (Expr ν))
    (xss : List (List (Place × Expr ν))) :
    (Expr.inList negated e items).putAll (spread 1 xss) =
      .inList negated e (putEach xss items) := by
  refine putAll_spread (fun items => .inList negated e items) ?_ xss items
  intro f i es
  rw [Nat.add_comm]
  cases i <;> rfl

end Expr

end SealedColumns.Sql
