import SealedColumns.Proofs.Visit

/-!
The placeholders of a tree that count, in visit order, and what numbering, restoring and counting do
to them. Main statement: a tree is numbered from zero upwards without gaps.
-/
namespace SealedColumns.Sql

variable {ν : Type}

/-- Where a placeholder comes from: the mapping of the input that its ordinal names, or nothing for
an anonymous one. Other placeholders and values do not count. -/
def Value.origin? : Value ν → Option (Option ν)
  | .placeholder .anonymous => some none
  | .placeholder (.numbered ordinal) => some (some ordinal)
  | _ => none

def Visit.origin? : Visit ν → Option (Option ν)
  | .value x => x.origin?
  | .table _ => none

def originsOf (vs : List (Visit ν)) : List (Option ν) := vs.filterMap Visit.origin?

@[simp] theorem originsOf_nil : originsOf ([] : List (Visit ν)) = [] := rfl

@[simp] theorem originsOf_append (xs ys : List (Visit ν)) :
    originsOf (xs ++ ys) = originsOf xs ++ originsOf ys := List.filterMap_append

@[simp] theorem originsOf_table (name : Name) (vs : List (Visit ν)) :
    originsOf (.table name :: vs) = originsOf vs := rfl

theorem originsOf_value (x : Value ν) (vs : List (Visit ν)) :
    originsOf (.value x :: vs) = x.origin?.toList ++ originsOf vs := by
  cases h : x.origin? <;> simp [originsOf, Visit.origin?, h]

def Statement.origins (t : Statement ν) : List (Option ν) := originsOf t.visits

def numbering : Visitor Empty Nat Nat where
  value x n :=
    match x with
    | .placeholder .anonymous => (.placeholder (.numbered n), n + 1)
    | x => (x.remark Empty.elim, n)
  table _ n := n

def restoring : Visitor Nat Empty Unit where
  value x _ := (x.remark fun _ => .anonymous, ())
  table _ _ := ()

/-- The expression with its placeholders restored. -/
def Expr.restored (e : Expr Nat) : Expr := (e.walk restoring ()).1

def counting : Visitor ν ν Nat where
  value x n :=
    match x with
    | .placeholder .anonymous => (x, n + 1)
    | x => (x, n)
  table _ n := n

theorem origin_none (o : Option Empty) : o = none := by
  cases o with
  | none => rfl
  | some ordinal => cases ordinal

theorem numbering_value (x : Value) (n : Nat) :
    (numbering.value x n).1.origin?.toList =
        (List.range' n x.origin?.toList.length).map some ∧
      (numbering.value x n).2 = n + x.origin?.toList.length := by
  cases x with
  | placeholder mark =>
    cases mark with
    | anonymous => exact ⟨rfl, rfl⟩
    | numbered ordinal => cases ordinal
    | named text => exact ⟨rfl, rfl⟩
  | _ => exact ⟨rfl, rfl⟩

theorem origins_numbering (vs : List (Visit Empty)) (first : Nat) :
    originsOf (numbering.pass vs first).1 =
        (List.range' first (originsOf vs).length).map some ∧
      (numbering.pass vs first).2 = first + (originsOf vs).length := by
  induction vs generalizing first with
  | nil => exact ⟨rfl, rfl⟩
  | cons v vs ih =>
    cases v with
    | table name => exact ih first
    | value x =>
      obtain ⟨origins, next⟩ := numbering_value x first
      obtain ⟨rest, last⟩ := ih (first + x.origin?.toList.length)
      simp only [Visitor.pass, originsOf_value, List.length_append, origins, next, rest, last]
      refine ⟨?_, by omega⟩
      rw [← List.map_append, List.range'_append_1]

theorem count_counting [DecidableEq ν] (vs : List (Visit ν)) (start : Nat) :
    (counting.pass vs start).2 = start + (originsOf vs).count none := by
  induction vs generalizing start with
  | nil => rfl
  | cons v vs ih =>
    cases v with
    | table name => exact ih start
    | value x =>
      have step : (counting.value x start).2 = start + x.origin?.toList.count none := by
        cases x with
        | placeholder mark => cases mark <;> rfl
        | _ => rfl
      simp only [Visitor.pass, originsOf_value, List.count_append, ih, step]
      omega

theorem origins_restoring (vs : List (Visit Nat)) :
    originsOf (restoring.pass vs ()).1 = (originsOf vs).map fun _ => none := by
  induction vs with
  | nil => rfl
  | cons v vs ih =>
    cases v with
    | table name => exact ih
    | value x =>
      have step : (restoring.value x ()).1.origin?.toList = x.origin?.toList.map fun _ => none := by
        cases x with
        | placeholder mark => cases mark <;> rfl
        | _ => rfl
      simp only [Visitor.pass, originsOf_value, List.map_append, step, ih]

namespace Statement

theorem countAnonymous_eq [DecidableEq ν] (t : Statement ν) :
    t.countAnonymous = t.origins.count none := by
  have walked := congrArg Prod.snd (t.visits_walk counting 0)
  rw [count_counting, Nat.zero_add] at walked
  exact walked

/-- All placeholders of a tree without ordinals that count are anonymous. -/
theorem length_origins (t : Statement) : t.origins.length = t.countAnonymous := by
  rw [countAnonymous_eq, List.count_eq_length.mpr fun o _ => (origin_none o).symm]

theorem origins_restore (t : Statement Nat) : t.restore.origins = t.origins.map fun _ => none := by
  have walked := congrArg Prod.fst (t.visits_walk restoring ())
  exact (congrArg originsOf walked).trans (origins_restoring t.visits)

theorem countAnonymous_restore (t : Statement Nat) :
    t.restore.countAnonymous = t.origins.length := by
  rw [← length_origins, origins_restore, List.length_map]

/-- The ordinals rise from zero, each of them once. -/
theorem origins_number (t : Statement) :
    t.number.1.origins = (List.range t.countAnonymous).map some := by
  have walked := congrArg Prod.fst (t.visits_walk numbering 0)
  rw [← t.length_origins, List.range_eq_range']
  exact (congrArg originsOf walked).trans (origins_numbering t.visits 0).1

theorem count_number (t : Statement) : t.number.2 = t.countAnonymous := by
  have walked := congrArg Prod.snd (t.visits_walk numbering 0)
  rw [(origins_numbering t.visits 0).2, Nat.zero_add] at walked
  exact walked.trans t.length_origins

end Statement

end SealedColumns.Sql
