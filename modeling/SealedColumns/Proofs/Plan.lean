import SealedColumns.Proofs.Numbering
import SealedColumns.Seal.Statement

/-!
Which placeholders sealing acts on, read off a numbered tree without running anything: the ones that
are compared with a sensitive column, and the ones that are written to one. No occurrence of a
placeholder is acted on twice.
-/
namespace SealedColumns

namespace Sql

def Value.ordinal? : Value Nat → Option Nat
  | .placeholder (.numbered n) => some n
  | _ => none

def Expr.ordinal? : Expr Nat → Option Nat
  | .value x => x.ordinal?
  | _ => none

mutual

/-- The ordinals that indexing an operand meets: its own, and those inside parentheses and in the
arguments of calls. -/
def Expr.operands : Expr Nat → List Nat
  | .value x => x.ordinal?.toList
  | .nested e => e.operands
  | .call _ _ args _ _ => operandsAll args
  | .argument _ _ e => e.operands
  | _ => []

def operandsAll : List (Expr Nat) → List Nat
  | [] => []
  | e :: es => e.operands ++ operandsAll es

end

end Sql

open Sql

namespace Sealing

variable (g : Sealing)

def operandsIf (indexed : Bool) (e : Expr Nat) : List Nat := if indexed then e.operands else []

mutual

/-- The ordinals that a predicate compares with a sensitive column, in the order in which they are
indexed. -/
def comparedIn (scope : List String) : Expr Nat → List Nat
  | .nested e => comparedIn scope e
  | .unary _ e => comparedIn scope e
  | .isNull _ e => comparedIn scope e
  | .binary l _ r =>
    operandsIf (g.isSensitive scope l && !g.isSensitive scope r) r ++
      operandsIf (g.isSensitive scope r && !g.isSensitive scope l) l ++
      comparedIn scope l ++ comparedIn scope r
  | .pattern _ _ e p _ => operandsIf (g.isSensitive scope e) p ++ comparedIn scope e
  | .inList _ e items =>
    (if g.isSensitive scope e then operandsAll items else []) ++ comparedIn scope e
  | .inQuery _ e _ => comparedIn scope e
  | .call _ _ args _ _ => comparedAll scope args
  | .argument _ _ e => comparedIn scope e
  | _ => []

def comparedAll (scope : List String) : List (Expr Nat) → List Nat
  | [] => []
  | e :: es => comparedIn scope e ++ comparedAll scope es

end

def filterCompared (scope : List String) (filter : Option (Expr Nat)) : List Nat :=
  match filter with
  | some e => if g.options.overwrite then g.comparedIn scope e else []
  | none => []

mutual

def queryCompared : Query Nat → List Nat
  | ⟨_, ctes, body, _⟩ => ctesCompared ctes ++ bodyCompared body

def ctesCompared : List (Cte Nat) → List Nat
  | [] => []
  | ⟨_, _, _, query⟩ :: ctes => queryCompared query ++ ctesCompared ctes

def bodyCompared : SetExpr Nat → List Nat
  | .select s => selectCompared s
  | .query q => queryCompared q
  | .operation _ _ l r => bodyCompared l ++ bodyCompared r
  | _ => []

def selectCompared : Select Nat → List Nat
  | ⟨_, _, _, sources, filter, _⟩ =>
    sourcesCompared sources ++ g.filterCompared (scopeOf sources) filter

def sourcesCompared : List (FromItem Nat) → List Nat
  | [] => []
  | item :: items => sourceCompared item ++ sourcesCompared items

def sourceCompared : FromItem Nat → List Nat
  | ⟨relation, joins⟩ => factorCompared relation ++ joinsCompared joins

def joinsCompared : List (Join Nat) → List Nat
  | [] => []
  | ⟨_, _, relation, _, _⟩ :: joins => factorCompared relation ++ joinsCompared joins

def factorCompared : TableFactor Nat → List Nat
  | .derived _ query _ => queryCompared query
  | .nested item _ => sourceCompared item
  | _ => []

end

def assignmentSlot? (a : Assignment Nat) : Option SensitiveColumn :=
  (g.assigned? a).filter fun _ => (Operand.ofExpr? a.value).isSome

def columnSlot? (rows : List (List (Expr Nat))) (position : Nat) (ident : Ident) :
    Option SensitiveColumn :=
  (g.active.get? ident).filter fun _ => isSupportedAt rows position

def columnSlots (columns : List Ident) (rows : List (List (Expr Nat))) :
    List (Option SensitiveColumn) :=
  columns.zipIdx.map fun (ident, position) => g.columnSlot? rows position ident

def slotted {α β : Type} (value : α → Expr Nat) (items : List (α × Option β)) : List Nat :=
  items.flatMap fun (item, slot) => if slot.isSome then (value item).ordinal?.toList else []

def assignmentsWritten (assignments : List (Assignment Nat)) : List Nat :=
  if assignments.any g.isDerivedTarget then []
  else slotted Assignment.value (assignments.zip (assignments.map g.assignmentSlot?))

def rowsWritten (columns : List Ident) (rows : List (List (Expr Nat))) : List Nat :=
  rows.flatMap fun row => slotted id (row.zip (g.columnSlots columns rows))

/-- Rows are expanded only if all of them are as wide as the column list. -/
def sourceWritten (columns : List Ident) (source : Option (Query Nat)) : List Nat :=
  match rowsOf? source with
  | some rows =>
    if rows.any fun row => row.length != columns.length then [] else g.rowsWritten columns rows
  | none => []

def insertWritten (x : Insert Nat) : List Nat :=
  if x.columns.isEmpty then g.assignmentsWritten x.assignments
  else if x.columns.any g.active.isDerived then []
  else g.sourceWritten x.columns x.source

/-- The ordinals whose values go to a sensitive column, in visit order. -/
def written : Statement Nat → List Nat
  | .insert x => g.insertWritten x
  | .update x => g.assignmentsWritten x.assignments
  | _ => []

/-- The ordinals whose values are compared with a sensitive column. -/
def compared : Statement Nat → List Nat
  | .update x => g.filterCompared [] x.filter
  | .delete x => g.filterCompared [] x.filter
  | .query x => g.queryCompared x
  | _ => []

/-! No occurrence of a placeholder is acted on twice. -/

section Occurrences

variable (n : Nat)

theorem count_ordinal? (x : Value Nat) :
    x.ordinal?.toList.count n = (originsOf [.value x]).count (some n) := by
  rw [originsOf_value, originsOf_nil, List.append_nil]
  cases x with
  | placeholder mark =>
    cases mark with
    | numbered m => simp [Value.ordinal?, Value.origin?, List.count_cons]
    | _ => rfl
  | _ => rfl

theorem count_operandsIf (indexed : Bool) (e : Expr Nat) :
    (operandsIf indexed e).count n ≤ e.operands.count n := by
  cases indexed with
  | true => exact Nat.le_refl _
  | false => exact Nat.zero_le _

variable (scope : List String)

mutual

/-- A placeholder that is indexed as an operand is not compared inside of that operand. -/
theorem count_comparedIn : ∀ e : Expr Nat,
    e.operands.count n + (g.comparedIn scope e).count n ≤ (originsOf e.visits).count (some n)
  | .value x => by
    simp only [Expr.operands, comparedIn, Expr.visits, count_ordinal?, List.count_nil]
    exact Nat.le_refl _
  | .nested e => by simpa only [Expr.operands, comparedIn, Expr.visits] using count_comparedIn e
  | .argument _ _ e => by
    simpa only [Expr.operands, comparedIn, Expr.visits] using count_comparedIn e
  | .unary _ e => by
    have inner := count_comparedIn e
    simp only [Expr.operands, comparedIn, Expr.visits, List.count_nil]
    omega
  | .isNull _ e => by
    have inner := count_comparedIn e
    simp only [Expr.operands, comparedIn, Expr.visits, List.count_nil]
    omega
  | .binary l _ r => by
    have left := count_comparedIn l
    have right := count_comparedIn r
    have onLeft := count_operandsIf n (g.isSensitive scope r && !g.isSensitive scope l) l
    have onRight := count_operandsIf n (g.isSensitive scope l && !g.isSensitive scope r) r
    simp only [Expr.operands, comparedIn, Expr.visits, originsOf_append, List.count_append,
      List.count_nil]
    -- At most one side is indexed, and what is indexed in it is not compared in it again.
    omega
  | .pattern _ _ e p _ => by
    have subject := count_comparedIn e
    have inner := count_comparedIn p
    have onPattern := count_operandsIf n (g.isSensitive scope e) p
    simp only [Expr.operands, comparedIn, Expr.visits, originsOf_append, List.count_append,
      List.count_nil]
    omega
  | .inList _ e items => by
    have subject := count_comparedIn e
    have inner := count_comparedAll items
    simp only [Expr.operands, comparedIn, Expr.visits, originsOf_append, List.count_append,
      List.count_nil]
    split
    · omega
    · rw [List.count_nil]
      omega
  | .inQuery _ e q => by
    have subject := count_comparedIn e
    simp only [Expr.operands, comparedIn, Expr.visits, originsOf_append, List.count_append,
      List.count_nil]
    omega
  | .call _ _ args clauses tail => by
    have inner := count_comparedAll args
    simp only [Expr.operands, comparedIn, Expr.visits, originsOf_append, List.count_append]
    omega
  | .column _ _ | .star _ | .existence _ _ | .subquery _ | .framed _ _ => by
    simp only [Expr.operands, comparedIn, List.count_nil]
    exact Nat.zero_le _

theorem count_comparedAll : ∀ es : List (Expr Nat),
    (operandsAll es).count n + (g.comparedAll scope es).count n ≤
      (originsOf (visitsAll es)).count (some n)
  | [] => Nat.le_refl _
  | e :: es => by
    have head := count_comparedIn e
    have tail := count_comparedAll es
    simp only [operandsAll, comparedAll, visitsAll, originsOf_append, List.count_append]
    omega

end

theorem count_filterCompared (filter : Option (Expr Nat)) :
    (g.filterCompared scope filter).count n ≤ (originsOf (visitsOption filter)).count (some n) := by
  cases filter with
  | none => exact Nat.le_refl _
  | some e =>
    have inner := g.count_comparedIn n scope e
    simp only [filterCompared, visitsOption]
    split
    · omega
    · exact Nat.zero_le _

mutual

theorem count_queryCompared : ∀ q : Query Nat,
    (g.queryCompared q).count n ≤ (originsOf q.visits).count (some n)
  | ⟨_, ctes, body, _⟩ => by
    have first := count_ctesCompared ctes
    have second := count_bodyCompared body
    simp only [queryCompared, Query.visits, originsOf_append, List.count_append]
    omega

theorem count_ctesCompared : ∀ ctes : List (Cte Nat),
    (g.ctesCompared ctes).count n ≤ (originsOf (visitsCtes ctes)).count (some n)
  | [] => Nat.le_refl _
  | ⟨_, _, _, query⟩ :: ctes => by
    have first := count_queryCompared query
    have rest := count_ctesCompared ctes
    simp only [ctesCompared, visitsCtes, Cte.visits, originsOf_append, List.count_append]
    omega

theorem count_bodyCompared : ∀ body : SetExpr Nat,
    (g.bodyCompared body).count n ≤ (originsOf body.visits).count (some n)
  | .select s => by simpa only [bodyCompared, SetExpr.visits] using count_selectCompared s
  | .query q => by simpa only [bodyCompared, SetExpr.visits] using count_queryCompared q
  | .operation _ _ l r => by
    have left := count_bodyCompared l
    have right := count_bodyCompared r
    simp only [bodyCompared, SetExpr.visits, originsOf_append, List.count_append]
    omega
  | .values _ _ | .insert _ | .update _ | .delete _ => Nat.zero_le _

theorem count_selectCompared : ∀ s : Select Nat,
    (g.selectCompared s).count n ≤ (originsOf s.visits).count (some n)
  | ⟨_, quantifiers, projection, sources, filter, clauses⟩ => by
    have first := count_sourcesCompared sources
    have second := g.count_filterCompared n (scopeOf sources) filter
    simp only [selectCompared, Select.visits, originsOf_append, List.count_append]
    omega

theorem count_sourcesCompared : ∀ items : List (FromItem Nat),
    (g.sourcesCompared items).count n ≤ (originsOf (visitsSources items)).count (some n)
  | [] => Nat.le_refl _
  | item :: items => by
    have first := count_sourceCompared item
    have rest := count_sourcesCompared items
    simp only [sourcesCompared, visitsSources, originsOf_append, List.count_append]
    omega

theorem count_sourceCompared : ∀ item : FromItem Nat,
    (g.sourceCompared item).count n ≤ (originsOf item.visits).count (some n)
  | ⟨relation, joins⟩ => by
    have first := count_factorCompared relation
    have rest := count_joinsCompared joins
    simp only [sourceCompared, FromItem.visits, originsOf_append, List.count_append]
    omega

theorem count_joinsCompared : ∀ joins : List (Join Nat),
    (g.joinsCompared joins).count n ≤ (originsOf (visitsJoins joins)).count (some n)
  | [] => Nat.le_refl _
  | ⟨_, _, relation, condition, _⟩ :: joins => by
    have first := count_factorCompared relation
    have rest := count_joinsCompared joins
    simp only [joinsCompared, visitsJoins, Join.visits, originsOf_append, List.count_append]
    omega

theorem count_factorCompared : ∀ factor : TableFactor Nat,
    (g.factorCompared factor).count n ≤ (originsOf factor.visits).count (some n)
  | .table _ _ _ _ => Nat.zero_le _
  | .derived _ query _ => by
    simpa only [factorCompared, TableFactor.visits] using count_queryCompared query
  | .nested item _ => by
    simpa only [factorCompared, TableFactor.visits] using count_sourceCompared item

end

theorem count_slotted {α β : Type} (value : α → Expr Nat) (items : List (α × Option β)) :
    (slotted value items).count n ≤
      (originsOf (items.flatMap fun x => (value x.1).visits)).count (some n) := by
  induction items with
  | nil => exact Nat.le_refl _
  | cons x items ih =>
    obtain ⟨item, slot⟩ := x
    have head : (if slot.isSome then (value item).ordinal?.toList else []).count n ≤
        (originsOf (value item).visits).count (some n) := by
      split
      · cases h : value item with
        | value x => exact Nat.le_of_eq (count_ordinal? n x)
        | _ => exact Nat.zero_le _
      · exact Nat.zero_le _
    simp only [slotted, List.flatMap_cons, originsOf_append, List.count_append] at ih ⊢
    omega

end Occurrences

end Sealing

end SealedColumns
