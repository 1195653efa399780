import SealedColumns.Proofs.Indexing
import SealedColumns.Proofs.Reached
import SealedColumns.Proofs.Tandem
import SealedColumns.Proofs.Whole

/-!
What a pass asks for, as one list that is read off the numbered tree: which operands it has indexed
and which ones it turns to a pair of ciphertext and index. A pass ends as the row of these requests
does; all else that it does cannot fail and leaves parameters and supply.
-/
namespace SealedColumns

open Sql Seal

/-- The placeholder that an operand is. -/
def Operand.ordinal? : Operand → Option Nat
  | .placeholder n => some n
  | _ => none

inductive Request where
  | index (operand : Operand)
  | pair (operand : Operand)
deriving DecidableEq, Repr

namespace Request

def operand : Request → Operand
  | .index operand => operand
  | .pair operand => operand

def ordinal? (r : Request) : Option Nat := r.operand.ordinal?

def ofValue? (v : Value Nat) : Option Request := (Operand.ofValue? v).map .index

/-- The request for a value that is written to a sensitive column. -/
def ofWritten? {α β : Type} (value : α → Expr Nat) : α × Option β → Option Request
  | (_, none) => none
  | (item, some _) => (Operand.ofExpr? (value item)).map .pair

end Request

namespace Sealing

section Plan

variable (g : Sealing)

def filterRequests (scope : List String) : Option (Expr Nat) → List Request
  | none => []
  | some e =>
    if g.options.overwrite then ((g.indexedAt scope e).map Prod.snd).filterMap Request.ofValue?
    else []

def selectsRequests (selects : List (Select Nat)) : List Request :=
  selects.flatMap fun s => g.filterRequests (scopeOf s.sources) s.filter

def assignmentsRequests (assignments : List (Assignment Nat)) : List Request :=
  if assignments.any g.isDerivedTarget then []
  else (assignments.zip (assignments.map g.assignmentSlot?)).filterMap
    (Request.ofWritten? Assignment.value)

def rowsRequests (columns : List Ident) (rows : List (List (Expr Nat))) : List Request :=
  rows.flatMap fun row =>
    (row.zip (g.columnSlots columns rows)).filterMap (Request.ofWritten? id)

def sourceRequests (columns : List Ident) (source : Option (Query Nat)) : List Request :=
  match rowsOf? source with
  | some rows =>
    if rows.any fun row => row.length != columns.length then [] else g.rowsRequests columns rows
  | none => []

def insertRequests (x : Insert Nat) : List Request :=
  if x.columns.isEmpty then g.assignmentsRequests x.assignments
  else if x.columns.any g.active.isDerived then []
  else g.sourceRequests x.columns x.source

/-- What a pass over a tree asks for, in this order. -/
def requests : Statement Nat → List Request
  | .insert x => g.insertRequests x
  | .update x => g.assignmentsRequests x.assignments ++ g.filterRequests [] x.filter
  | .delete x => g.filterRequests [] x.filter
  | .query x => g.selectsRequests x.selects
  | _ => []

def perform : Request → Seal Unit
  | .index (.placeholder n) => g.indexPlaceholder n
  | .index (.literal plain) => do
    let _ ← g.index plain
  | .index .null => pure ()
  | .pair operand => do
    let _ ← g.sealOperand operand

end Plan

section Congruence

variable {g g' : Sealing}

theorem isSensitive_congr (active : g'.active = g.active) (scope : List String) (e : Expr Nat) :
    g'.isSensitive scope e = g.isSensitive scope e := by
  simp only [isSensitive, sensitive?, active]

mutual

theorem indexedAt_congr (active : g'.active = g.active) (scope : List String) :
    ∀ e : Expr Nat, g'.indexedAt scope e = g.indexedAt scope e
  | .nested e | .unary _ e | .isNull _ e | .inQuery _ e _ | .argument _ _ e => by
    simp only [indexedAt, indexedAt_congr active scope e]
  | .binary l _ r => by
    simp only [indexedAt, isSensitive_congr active, indexedAt_congr active scope l,
      indexedAt_congr active scope r]
  | .pattern _ _ e _ _ | .inList _ e _ => by
    simp only [indexedAt, isSensitive_congr active, indexedAt_congr active scope e]
  | .call _ _ args _ _ => by simp only [indexedAt, indexedAtAll_congr active scope args]
  | .column _ _ | .value _ | .star _ | .existence _ _ | .subquery _ | .framed _ _ => rfl

theorem indexedAtAll_congr (active : g'.active = g.active) (scope : List String) :
    ∀ es : List (Expr Nat), g'.indexedAtAll scope es = g.indexedAtAll scope es
  | [] => rfl
  | e :: es => by
    simp only [indexedAtAll, indexedAt_congr active scope e, indexedAtAll_congr active scope es]

end

variable (active : g'.active = g.active) (options : g'.options = g.options)

include active in
theorem assignmentsRequests_congr (as : List (Assignment Nat)) :
    g'.assignmentsRequests as = g.assignmentsRequests as := by
  have derived : g'.isDerivedTarget = g.isDerivedTarget := by
    funext a
    simp only [isDerivedTarget, active]
  have slots : g'.assignmentSlot? = g.assignmentSlot? := by
    funext a
    simp only [assignmentSlot?, assigned?, active]
  simp only [assignmentsRequests, derived, slots]

include active options

theorem filterRequests_congr (scope : List String) (filter : Option (Expr Nat)) :
    g'.filterRequests scope filter = g.filterRequests scope filter := by
  cases filter with
  | none => rfl
  | some e => simp only [filterRequests, options, indexedAt_congr active]

/-- The requests are a matter of the tree, the active columns and the options alone. -/
theorem requests_congr (t : Statement Nat) : g'.requests t = g.requests t := by
  cases t with
  | insert x =>
    simp only [requests, insertRequests, assignmentsRequests_congr active, sourceRequests,
      rowsRequests, columnSlots, columnSlot?, active]
  | update x =>
    simp only [requests, assignmentsRequests_congr active, filterRequests_congr active options]
  | delete x => simp only [requests, filterRequests_congr active options]
  | query x => simp only [requests, selectsRequests, filterRequests_congr active options]
  | explain _ _ | other _ _ _ _ => rfl

end Congruence

section Ordinals

variable {α β : Type}

theorem values_under (i : Nat) (xs : List (Place × α)) :
    (under i xs).map Prod.snd = xs.map Prod.snd := by
  rw [under, List.map_map]
  rfl

theorem values_spread (first : Nat) (xss : List (List (Place × α))) :
    (spread first xss).map Prod.snd = xss.flatMap fun xs => xs.map Prod.snd := by
  induction xss generalizing first with
  | nil => rfl
  | cons xs xss ih => rw [spread, List.map_append, values_under, ih, List.flatMap_cons]

def ordinalsOf (xs : List (Place × Value Nat)) : List Nat :=
  (xs.map Prod.snd).filterMap Value.ordinal?

@[simp] theorem ordinalsOf_nil : ordinalsOf [] = [] := rfl

@[simp] theorem ordinalsOf_append (xs ys : List (Place × Value Nat)) :
    ordinalsOf (xs ++ ys) = ordinalsOf xs ++ ordinalsOf ys := by
  simp only [ordinalsOf, List.map_append, List.filterMap_append]

@[simp] theorem ordinalsOf_under (i : Nat) (xs : List (Place × Value Nat)) :
    ordinalsOf (under i xs) = ordinalsOf xs := by
  rw [ordinalsOf, values_under, ordinalsOf]

@[simp] theorem ordinalsOf_spread (first : Nat) (xss : List (List (Place × Value Nat))) :
    ordinalsOf (spread first xss) = xss.flatMap ordinalsOf := by
  rw [ordinalsOf, values_spread, List.filterMap_flatMap]
  rfl

mutual

theorem ordinals_operandsAt : ∀ e : Expr Nat, ordinalsOf e.operandsAt = e.operands
  | .value v => by cases h : v.ordinal? <;> simp [Expr.operandsAt, Expr.operands, ordinalsOf, h]
  | .nested e | .argument _ _ e => by
    rw [Expr.operandsAt, ordinalsOf_under, ordinals_operandsAt e, Expr.operands]
  | .call _ _ args _ _ => by
    rw [Expr.operandsAt, ordinalsOf_spread, ordinals_operandsAtAll args, Expr.operands]
  | .column _ _ | .unary _ _ | .isNull _ _ | .binary _ _ _ | .pattern _ _ _ _ _ | .inList _ _ _
  | .inQuery _ _ _ | .star _ | .existence _ _ | .subquery _ | .framed _ _ => rfl

theorem ordinals_operandsAtAll : ∀ es : List (Expr Nat),
    (operandsAtAll es).flatMap ordinalsOf = operandsAll es
  | [] => rfl
  | e :: es => by
    rw [operandsAtAll, List.flatMap_cons, ordinals_operandsAt e, ordinals_operandsAtAll es,
      operandsAll]

end

theorem ordinals_operandsAtIf (indexed : Bool) (e : Expr Nat) :
    ordinalsOf (operandsAtIf indexed e) = operandsIf indexed e := by
  cases indexed with
  | true => exact ordinals_operandsAt e
  | false => rfl

variable {g : Sealing} (scope : List String)

mutual

theorem ordinals_indexedAt : ∀ e : Expr Nat, ordinalsOf (g.indexedAt scope e) = g.comparedIn scope e
  | .nested e | .unary _ e | .isNull _ e | .inQuery _ e _ | .argument _ _ e => by
    rw [indexedAt, ordinalsOf_under, ordinals_indexedAt e, comparedIn]
  | .binary l _ r => by
    simp only [indexedAt, ordinalsOf_append, ordinalsOf_under, ordinals_operandsAtIf,
      ordinals_indexedAt l, ordinals_indexedAt r, comparedIn]
  | .pattern _ _ e p _ => by
    simp only [indexedAt, ordinalsOf_append, ordinalsOf_under, ordinals_operandsAtIf,
      ordinals_indexedAt e, comparedIn]
  | .inList _ e items => by
    simp only [indexedAt, ordinalsOf_append, ordinalsOf_under, ordinals_indexedAt e, comparedIn]
    split
    · rw [ordinalsOf_spread, ordinals_operandsAtAll]
    · rfl
  | .call _ _ args _ _ => by
    rw [indexedAt, ordinalsOf_spread, ordinals_indexedAtAll args, comparedIn]
  | .column _ _ | .value _ | .star _ | .existence _ _ | .subquery _ | .framed _ _ => rfl

theorem ordinals_indexedAtAll : ∀ es : List (Expr Nat),
    (g.indexedAtAll scope es).flatMap ordinalsOf = g.comparedAll scope es
  | [] => rfl
  | e :: es => by
    rw [indexedAtAll, List.flatMap_cons, ordinals_indexedAt e, ordinals_indexedAtAll es,
      comparedAll]

end

theorem ordinal?_ofValue? (v : Value Nat) :
    (Operand.ofValue? v).bind Operand.ordinal? = v.ordinal? := by
  cases v with
  | placeholder mark => cases mark <;> rfl
  | _ => rfl

theorem ordinals_filterRequests (filter : Option (Expr Nat)) :
    (g.filterRequests scope filter).filterMap Request.ordinal? = g.filterCompared scope filter := by
  cases filter with
  | none => rfl
  | some e =>
    rw [filterRequests, filterCompared]
    split
    · have each : ∀ v, (Request.ofValue? v).bind Request.ordinal? = v.ordinal? := fun v => by
        rw [← ordinal?_ofValue?, Request.ofValue?, Option.bind_map]
        rfl
      rw [List.filterMap_filterMap, funext each]
      exact ordinals_indexedAt scope e
    · rfl

theorem ordinals_ofWritten? (value : α → Expr Nat) (items : List (α × Option β)) :
    (items.filterMap (Request.ofWritten? value)).filterMap Request.ordinal? =
      slotted value items := by
  rw [List.filterMap_filterMap, slotted, List.filterMap_eq_flatMap_toList]
  refine List.flatMap_congr fun x _ => ?_
  obtain ⟨item, slot⟩ := x
  cases slot with
  | none => rfl
  | some c =>
    simp only [Request.ofWritten?, Option.isSome_some, if_true, Option.bind_map]
    cases value item with
    | value v => exact congrArg Option.toList (ordinal?_ofValue? v)
    | _ => rfl

theorem ordinals_assignmentsRequests (as : List (Assignment Nat)) :
    (g.assignmentsRequests as).filterMap Request.ordinal? = g.assignmentsWritten as := by
  rw [assignmentsRequests, assignmentsWritten]
  split
  · rfl
  · exact ordinals_ofWritten? _ _

theorem ordinals_insertRequests (x : Insert Nat) :
    (g.insertRequests x).filterMap Request.ordinal? = g.insertWritten x := by
  have row : ∀ rows, (g.rowsRequests x.columns rows).filterMap Request.ordinal? =
      g.rowsWritten x.columns rows := fun rows => by
    rw [rowsRequests, List.filterMap_flatMap, rowsWritten]
    exact List.flatMap_congr fun _ _ => ordinals_ofWritten? _ _
  rw [insertRequests, insertWritten]
  split
  · exact ordinals_assignmentsRequests _
  · split
    · rfl
    · rw [sourceRequests, sourceWritten]
      cases rowsOf? x.source with
      | none => rfl
      | some rows =>
        dsimp only
        split
        · rfl
        · exact row rows

def selectsCompared (g : Sealing) (selects : List (Select Nat)) : List Nat :=
  selects.flatMap fun s => g.filterCompared (scopeOf s.sources) s.filter

theorem selectsCompared_append (ss ss' : List (Select Nat)) :
    g.selectsCompared (ss ++ ss') = g.selectsCompared ss ++ g.selectsCompared ss' :=
  List.flatMap_append

mutual

theorem queryCompared_eq : ∀ q : Query Nat, g.queryCompared q = g.selectsCompared q.selects
  | ⟨_, ctes, body, _⟩ => by
    rw [queryCompared, Query.selects, selectsCompared_append, ctesCompared_eq ctes,
      bodyCompared_eq body]

theorem ctesCompared_eq : ∀ ctes : List (Cte Nat),
    g.ctesCompared ctes = g.selectsCompared (ctesSelects ctes)
  | [] => rfl
  | ⟨_, _, _, query⟩ :: ctes => by
    rw [ctesCompared, ctesSelects, selectsCompared_append, queryCompared_eq query,
      ctesCompared_eq ctes]

theorem bodyCompared_eq : ∀ body : SetExpr Nat,
    g.bodyCompared body = g.selectsCompared body.selects
  | .select ⟨_, _, _, sources, filter, _⟩ => by
    rw [bodyCompared, selectCompared, SetExpr.selects, selectsCompared_append,
      sourcesCompared_eq sources]
    exact congrArg _ (List.append_nil _).symm
  | .query q => by rw [bodyCompared, SetExpr.selects, queryCompared_eq q]
  | .operation _ _ l r => by
    rw [bodyCompared, SetExpr.selects, selectsCompared_append, bodyCompared_eq l, bodyCompared_eq r]
  | .values _ _ | .insert _ | .update _ | .delete _ => rfl

theorem sourcesCompared_eq : ∀ items : List (FromItem Nat),
    g.sourcesCompared items = g.selectsCompared (sourcesSelects items)
  | [] => rfl
  | ⟨relation, joins⟩ :: items => by
    rw [sourcesCompared, sourceCompared, sourcesSelects, selectsCompared_append,
      selectsCompared_append, factorCompared_eq relation, joinsCompared_eq joins,
      sourcesCompared_eq items]

theorem joinsCompared_eq : ∀ joins : List (Join Nat),
    g.joinsCompared joins = g.selectsCompared (joinsSelects joins)
  | [] => rfl
  | ⟨_, _, relation, _, _⟩ :: joins => by
    rw [joinsCompared, joinsSelects, selectsCompared_append, factorCompared_eq relation,
      joinsCompared_eq joins]

theorem factorCompared_eq : ∀ factor : TableFactor Nat,
    g.factorCompared factor = g.selectsCompared factor.selects
  | .table _ _ _ _ => rfl
  | .derived _ query _ => by rw [factorCompared, TableFactor.selects, queryCompared_eq query]
  | .nested ⟨relation, joins⟩ _ => by
    rw [factorCompared, sourceCompared, TableFactor.selects, selectsCompared_append,
      factorCompared_eq relation, joinsCompared_eq joins]

end

/-- The placeholders among the requests are those that are written and those that are compared. -/
theorem ordinals_requests (t : Statement Nat) :
    (g.requests t).filterMap Request.ordinal? = g.written t ++ g.compared t := by
  cases t with
  | insert x => simp only [requests, ordinals_insertRequests, written, compared, List.append_nil]
  | update x =>
    simp only [requests, List.filterMap_append, ordinals_assignmentsRequests,
      ordinals_filterRequests, written, compared]
  | delete x => simp only [requests, ordinals_filterRequests, written, compared, List.nil_append]
  | query x =>
    simp only [requests, selectsRequests, List.filterMap_flatMap, written, compared,
      queryCompared_eq, selectsCompared, ordinals_filterRequests, List.nil_append]
  | explain _ _ | other _ _ _ _ => rfl

end Ordinals

end Sealing

end SealedColumns
