import SealedColumns.Proofs.Emission
import SealedColumns.Proofs.OneSource
import SealedColumns.Proofs.Printing

/-!
What sealing makes of the placeholders in the order in which they are printed: the same as of the
origins in visit order. So a text whose placeholders are printed in visit order stays one.
-/
namespace SealedColumns

open Sql

namespace Sql

variable {ν : Type}

def Statement.marks (t : Statement ν) : List (Option ν) := marksOf t.segments

/-- The placeholders of a row in the order in which they are printed. -/
def rowMarks (row : List (Expr ν)) : List (Option ν) := row.flatMap fun e => marksOf e.segments

theorem flatMap_segmentsAll (es : List (Expr ν)) :
    (segmentsAll es).flatMap marksOf = rowMarks es := by
  induction es with
  | nil => rfl
  | cons e es ih => rw [segmentsAll, List.flatMap_cons, ih, rowMarks, rowMarks, List.flatMap_cons]

theorem flatMap_segmentsAssignments (as : List (Assignment ν)) :
    (segmentsAssignments as).flatMap marksOf = as.flatMap fun a => marksOf a.value.segments := by
  induction as with
  | nil => rfl
  | cons a as ih =>
    cases a
    rw [segmentsAssignments, List.flatMap_cons, ih, List.flatMap_cons, Assignment.segments,
      marksOf_text]

theorem flatMap_segmentsRows (word : String) (rows : List (List (Expr ν))) :
    (segmentsRows word rows).flatMap marksOf = rows.flatMap rowMarks := by
  induction rows with
  | nil => rfl
  | cons row rows ih =>
    rw [segmentsRows, List.flatMap_cons, ih, List.flatMap_cons]
    simp [flatMap_segmentsAll]

theorem marksOf_query (q : Query ν) :
    marksOf q.segments = (segmentsCtes q.ctes).flatMap marksOf ++ marksOf q.body.segments ++
      rowMarks q.clauses := by
  obtain ⟨recursive, ctes, body, clauses⟩ := q
  cases ctes <;> simp [Query.segments, segmentsCtes, flatMap_segmentsAll]

theorem marksOf_renameColumn (text : String) (e : Expr ν) :
    marksOf (e.renameColumn text).segments = marksOf e.segments := by
  cases e <;> rfl

end Sql

namespace Sealing

variable {g : Sealing} {scope : List String}

theorem marksOf_readIndex (e : Expr Nat) :
    marksOf (g.readIndex scope e).segments = marksOf e.segments := by
  unfold readIndex
  split
  · exact marksOf_renameColumn _ e
  · rfl

theorem marksOf_literal {v : Value Nat} {text : String}
    (literal : Operand.ofValue? v = some (.literal text)) : marksOf [v.segment] = [] := by
  cases v with
  | string text => rfl
  | number text long => rfl
  | placeholder mark => cases mark <;> cases literal
  | _ => cases literal

/-! A predicate keeps its placeholders. -/

mutual

theorem OperandIndexed.marks : ∀ {e e' : Expr Nat}, g.OperandIndexed e e' →
    marksOf e'.segments = marksOf e.segments
  | _, _, .value (.literal literal _) => (marksOf_literal literal).symm
  | _, _, .value (.kept _) => rfl
  | _, _, .nested inner | _, _, .argument inner => by simp [Expr.segments, inner.marks]
  | _, _, .call args => by simp [Expr.segments, args.marks]
  | _, _, .kept _ => rfl

theorem OperandsIndexed.marks : ∀ {es es' : List (Expr Nat)}, g.OperandsIndexed es es' →
    (segmentsAll es').flatMap marksOf = (segmentsAll es).flatMap marksOf
  | _, _, .nil => rfl
  | _, _, .cons head tail => by
    simp only [segmentsAll, List.flatMap_cons, head.marks, tail.marks]

end

theorem OperandIndexedIf.marks {indexed : Bool} {e e' : Expr Nat}
    (run : g.OperandIndexedIf indexed e e') : marksOf e'.segments = marksOf e.segments := by
  cases indexed with
  | true => exact OperandIndexed.marks run
  | false =>
    cases run
    rfl

theorem OperandsIndexedIf.marks {indexed : Bool} {es es' : List (Expr Nat)}
    (run : g.OperandsIndexedIf indexed es es') :
    (segmentsAll es').flatMap marksOf = (segmentsAll es).flatMap marksOf := by
  cases indexed with
  | true => exact OperandsIndexed.marks run
  | false =>
    cases run
    rfl

mutual

theorem PredicateSealed.marks : ∀ {e e' : Expr Nat}, g.PredicateSealed scope e e' →
    marksOf e'.segments = marksOf e.segments
  | _, _, .nested inner | _, _, .unary inner | _, _, .isNull inner | _, _, .inQuery inner
  | _, _, .argument inner => by simp [Expr.segments, inner.marks]
  | _, _, .binary right left first second => by
    simp [Expr.segments, first.marks, second.marks, OperandIndexedIf.marks right,
      OperandIndexedIf.marks left]
  | _, _, .pattern operand subject => by
    simp [Expr.segments, subject.marks, OperandIndexedIf.marks operand]
  | _, _, .inList items subject => by
    simp [Expr.segments, subject.marks, OperandsIndexedIf.marks items]
  | _, _, .call args => by simp [Expr.segments, args.marks]
  | _, _, .column => marksOf_readIndex _
  | _, _, .kept _ => rfl

theorem ArgumentsSealed.marks : ∀ {es es' : List (Expr Nat)}, g.ArgumentsSealed scope es es' →
    (segmentsAll es').flatMap marksOf = (segmentsAll es).flatMap marksOf
  | _, _, .nil => rfl
  | _, _, .cons head tail => by
    simp only [segmentsAll, List.flatMap_cons, head.marks, tail.marks]

end

theorem FilterSealed.marks {filter filter' : Option (Expr Nat)}
    (run : g.FilterSealed scope filter filter') :
    marksOf (filterSegments filter') = marksOf (filterSegments filter) := by
  cases run with
  | none => rfl
  | some _ predicate => simp [filterSegments, predicate.marks]
  | kept _ => rfl

theorem ProjectionSealed.marks {sources : List (FromItem Nat)}
    {items items' : List (SelectItem Nat)}
    (run : g.ProjectionSealed sources items items') :
    (segmentsItems items').flatMap marksOf = (segmentsItems items).flatMap marksOf := by
  induction run with
  | nil => rfl
  | @cons item item' _ _ head _ ih =>
    have here : marksOf item'.segments = marksOf item.segments := by
      cases head with
      | renamed _ _ =>
        obtain ⟨e, label⟩ := item
        cases label <;> simp [SelectItem.segments, marksOf_renameColumn]
      | kept _ => rfl
    rw [segmentsItems, segmentsItems, List.flatMap_cons, List.flatMap_cons, here, ih]

end Sealing

/-! A query keeps its placeholders. -/

section Queries

variable {g : Sealing}

mutual

theorem Selectwise.marks : ∀ {q q' : Query Nat},
    Selectwise g.ProjectionSealed g.SelectFilterSealed q q' →
      marksOf q'.segments = marksOf q.segments
  | _, _, .query ctes body => by simp only [marksOf_query, ctes.marks, body.marks]

theorem CtesSelectwise.marks : ∀ {cs cs' : List (Cte Nat)},
    CtesSelectwise g.ProjectionSealed g.SelectFilterSealed cs cs' →
      (segmentsCtes cs').flatMap marksOf = (segmentsCtes cs).flatMap marksOf
  | _, _, .nil => rfl
  | _, _, .cons query ctes => by
    simp [segmentsCtes, Cte.segments, query.marks, ctes.marks]

theorem BodySelectwise.marks : ∀ {body body' : SetExpr Nat},
    BodySelectwise g.ProjectionSealed g.SelectFilterSealed body body' →
      marksOf body'.segments = marksOf body.segments
  | _, _, @BodySelectwise.select _ _ order _ _ _ _ _ _ _ _ projection sources filter => by
    cases order <;>
      simp [SetExpr.segments, Select.segments, selectSegments, sources.marks,
        Sealing.ProjectionSealed.marks projection, Sealing.FilterSealed.marks filter]
  | _, _, .query query => by simp [SetExpr.segments, query.marks]
  | _, _, .operation left right => by simp [SetExpr.segments, left.marks, right.marks]
  | _, _, .kept _ => rfl

theorem SourcesSelectwise.marks : ∀ {items items' : List (FromItem Nat)},
    SourcesSelectwise g.ProjectionSealed g.SelectFilterSealed items items' →
      (segmentsSources items').flatMap marksOf = (segmentsSources items).flatMap marksOf
  | _, _, .nil => rfl
  | _, _, .cons relation joins items => by
    simp [segmentsSources, FromItem.segments, relation.marks, joins.marks, items.marks]

theorem JoinsSelectwise.marks : ∀ {js js' : List (Join Nat)},
    JoinsSelectwise g.ProjectionSealed g.SelectFilterSealed js js' →
      marksOf (segmentsJoins js') = marksOf (segmentsJoins js)
  | _, _, .nil => rfl
  | _, _, .cons relation joins => by
    simp [segmentsJoins, Join.segments, relation.marks, joins.marks]

theorem FactorSelectwise.marks : ∀ {factor factor' : TableFactor Nat},
    FactorSelectwise g.ProjectionSealed g.SelectFilterSealed factor factor' →
      marksOf factor'.segments = marksOf factor.segments
  | _, _, .table => rfl
  | _, _, .derived query => by simp [TableFactor.segments, query.marks]
  | _, _, .nested relation joins => by
    simp [TableFactor.segments, FromItem.segments, relation.marks, joins.marks]

end

end Queries

/-! What is written gives way to pairs. -/

theorem within_marks (e : Expr Nat) : Within e.ordinal?.toList (marksOf e.segments) := fun n => by
  cases e with
  | value x =>
    cases x with
    | placeholder mark =>
      cases mark with
      | numbered ordinal => exact Nat.le_refl _
      | _ => exact Nat.zero_le _
    | _ => exact Nat.zero_le _
  | _ => exact Nat.zero_le _

namespace Sealing

variable {g : Sealing}

theorem ValuePair.marks {keep : Bool} {e target index : Expr Nat}
    (pair : g.ValuePair e target index) :
    (if keep then marksOf e.segments else []) ++
        (marksOf target.segments ++ marksOf index.segments) =
      expandOrigins keep e.ordinal?.toList (marksOf e.segments) := by
  cases pair with
  | placeholder n =>
    have marks : marksOf (Expr.value (.placeholder (.numbered n))).segments = [some n] := rfl
    rw [marks]
    cases keep <;> simp [expandOrigins, Expr.ordinal?, Value.ordinal?] <;> rfl
  | @literal v _ _ _ _ literal =>
    have marks : marksOf (Expr.value v).segments = [] := marksOf_literal literal
    rw [marks]
    cases keep <;> rfl
  | null => cases keep <;> rfl

section Items

variable {α β : Type} {keep : Bool} {pair : β → α → α → α → Prop} {value : α → Expr Nat}

def itemMarks (value : α → Expr Nat) (items : List α) : List (Option Nat) :=
  items.flatMap fun item => marksOf (value item).segments

theorem itemMarks_cons (item : α) (items : List α) :
    itemMarks value (item :: items) =
      marksOf (value item).segments ++ itemMarks value items := List.flatMap_cons

theorem within_itemMarks (value : α → Expr Nat) (items : List (α × Option β)) :
    Within (slotted value items) (itemMarks value (items.map Prod.fst)) := by
  induction items with
  | nil => exact .nil
  | cons x items ih =>
    obtain ⟨item, slot⟩ := x
    rw [List.map_cons, itemMarks_cons, slotted, List.flatMap_cons]
    refine Within.append ?_ ih
    cases slot with
    | none => exact .nil
    | some slot => exact within_marks (value item)

theorem Spliced.marks (value : α → Expr Nat) {items : List (α × Option β)} {out : List α}
    (paired : ∀ {slot : β} {item target index : α}, pair slot item target index →
      g.ValuePair (value item) (value target) (value index))
    (spliced : Spliced keep pair items out) (once : Once (itemMarks value (items.map Prod.fst))) :
    itemMarks value out =
      expandOrigins keep (slotted value items) (itemMarks value (items.map Prod.fst)) := by
  -- On the items; `once` keeps the ordinals of one item out of the others.
  induction spliced with
  | nil => rfl
  | @kept item items out _ ih =>
    rw [List.map_cons, itemMarks_cons] at once ⊢
    have parts := expandOrigins_parts keep once .nil (within_itemMarks value items)
    rw [List.nil_append, expandOrigins_none, ← ih once.right] at parts
    rw [itemMarks_cons]
    exact parts.symm
  | @pair slot item target index items out here _ ih =>
    rw [List.map_cons, itemMarks_cons] at once ⊢
    have parts := expandOrigins_parts keep once (within_marks (value item))
      (within_itemMarks value items)
    rw [← (paired here).marks, ← ih once.right] at parts
    have split : slotted value ((item, some slot) :: items) =
        (value item).ordinal?.toList ++ slotted value items := by
      simp [slotted]
    rw [split]
    refine Eq.trans ?_ parts.symm
    cases keep <;> simp [itemMarks_cons]

end Items

theorem within_assignmentMarks (as : List (Assignment Nat)) :
    Within (g.assignmentsWritten as) (itemMarks Assignment.value as) := by
  unfold assignmentsWritten
  split
  · exact .nil
  · have inside := within_itemMarks Assignment.value (as.zip (as.map g.assignmentSlot?))
    rwa [List.map_fst_zip (by simp)] at inside

theorem AssignmentsSealed.marks {as as' : List (Assignment Nat)} (run : g.AssignmentsSealed as as')
    (once : Once (itemMarks Assignment.value as)) :
    itemMarks Assignment.value as' =
      expandOrigins g.options.writeSource (g.assignmentsWritten as)
        (itemMarks Assignment.value as) := by
  unfold assignmentsWritten
  cases run with
  | derived derived => rw [if_pos derived, expandOrigins_none]
  | spliced plain spliced =>
    have names : (as.zip (as.map g.assignmentSlot?)).map Prod.fst = as := List.map_fst_zip (by simp)
    have marks := Spliced.marks Assignment.value (fun here => here.value) spliced
      (by rwa [names])
    rw [names] at marks
    rw [if_neg (by simp [plain]), marks]

section Rows

variable {slots : List (Option SensitiveColumn)} {rows rows' : List (List (Expr Nat))}

def rowWritten (slots : List (Option SensitiveColumn)) (row : List (Expr Nat)) : List Nat :=
  slotted id (row.zip slots)

theorem within_rowMarks {row : List (Expr Nat)} (wide : row.length ≤ slots.length) :
    Within (rowWritten slots row) (rowMarks row) := by
  have inside := within_itemMarks id (row.zip slots)
  rwa [List.map_fst_zip wide] at inside

theorem within_rowsMarks (wide : ∀ row ∈ rows, row.length ≤ slots.length) :
    Within (rows.flatMap (rowWritten slots)) (rows.flatMap rowMarks) := by
  induction rows with
  | nil => exact .nil
  | cons row rows ih =>
    rw [List.flatMap_cons, List.flatMap_cons]
    have here := within_rowMarks (wide row List.mem_cons_self)
    exact here.append (ih fun r member => wide r (List.mem_cons_of_mem _ member))

theorem marks_rows (run : List.Forall₂ (g.RowSealed slots) rows rows')
    (wide : ∀ row ∈ rows, row.length ≤ slots.length) (once : Once (rows.flatMap rowMarks)) :
    rows'.flatMap rowMarks = expandOrigins g.options.writeSource (rows.flatMap (rowWritten slots))
      (rows.flatMap rowMarks) := by
  induction run with
  | nil => rfl
  | @cons row row' rows rows' head _ ih =>
    rw [List.flatMap_cons] at once
    have wideHere := wide row List.mem_cons_self
    have wideLater : ∀ r ∈ rows, r.length ≤ slots.length := fun r member =>
      wide r (List.mem_cons_of_mem _ member)
    have values : (row.zip slots).map Prod.fst = row := List.map_fst_zip wideHere
    have marks : rowMarks row' = expandOrigins g.options.writeSource (rowWritten slots row)
        (rowMarks row) := by
      have expanded := Spliced.marks id (fun here => here) head
        (by rw [values]; exact once.left)
      rwa [values] at expanded
    rw [List.flatMap_cons, List.flatMap_cons, List.flatMap_cons, marks, ih wideLater once.right]
    exact (expandOrigins_parts _ once (within_rowMarks wideHere) (within_rowsMarks wideLater)).symm

end Rows

end Sealing

namespace Sealing

variable {g : Sealing}

/-- What an INSERT prints behind its values. -/
def restMarks (x : Insert Nat) : List (Option Nat) :=
  itemMarks Assignment.value x.updates ++ marksOf (filterSegments x.updateFilter) ++
    rowMarks x.clauses

theorem marksOf_insert {x : Insert Nat} (one : x.OneSource) :
    marksOf x.segments = marksOf (segmentsQuery? x.source) ++
      (itemMarks Assignment.value x.assignments ++ restMarks x) := by
  obtain ⟨verb, table, label, columns, source, assignments, rowAlias, conflict, updates,
    updateFilter, clauses⟩ := x
  have behind : ∀ front : List (Segment Nat),
      marksOf (front ++ .text (renderLabel rowAlias ++ conflict.render) ::
        commaBetween (segmentsAssignments updates) ++ filterSegments updateFilter ++
          spacedSegments (segmentsAll clauses)) =
        marksOf front ++ (itemMarks Assignment.value updates ++
          marksOf (filterSegments updateFilter) ++ rowMarks clauses) := fun front => by
    simp [flatMap_segmentsAll, flatMap_segmentsAssignments, itemMarks]
  rw [Insert.segments, List.cons_append, List.cons_append, List.cons_append, marksOf_text, behind]
  rcases one with none | none
  · cases none
    cases assignments with
    | nil => simp [segmentsQuery?, itemMarks, restMarks]
    | cons a rest =>
      simp [segmentsQuery?, flatMap_segmentsAssignments, itemMarks, restMarks]
  · cases none
    cases source <;> simp [segmentsQuery?, itemMarks, restMarks]

/-- The placeholders of a source around those of its rows. -/
structure MarksAround (source : Option (Query Nat)) (rows : List (List (Expr Nat)))
    (front back : List (Option Nat)) : Prop where
  marks : marksOf (segmentsQuery? source) = front ++ (rows.flatMap rowMarks ++ back)
  withRows : ∀ rows', marksOf (segmentsQuery? (withRows rows' source)) =
    front ++ (rows'.flatMap rowMarks ++ back)

theorem marksAround {source : Option (Query Nat)} {rows : List (List (Expr Nat))}
    (found : rowsOf? source = some rows) : ∃ front back, MarksAround source rows front back := by
  unfold rowsOf? at found
  split at found
  · rename_i recursive ctes rowWord inner clauses
    cases found
    refine ⟨(segmentsCtes ctes).flatMap marksOf, rowMarks clauses, ?_, fun rows' => ?_⟩ <;>
      simp [withRows, segmentsQuery?, marksOf_query, SetExpr.segments, flatMap_segmentsRows]
  · cases found

theorem Unsealed.written {x : Insert Nat} (listed : x.columns ≠ []) (unsealed : g.Unsealed x) :
    g.insertWritten x = [] := by
  rw [insertWritten, if_neg (by simpa using listed)]
  cases unsealed with
  | derived derived => rw [if_pos derived]
  | plain plain =>
    rw [sourceWritten_plain (List.all_eq_true.mpr fun ident member => by simp [plain ident member])]
    exact ite_self []
  | source missing =>
    rw [sourceWritten, missing]
    exact ite_self []
  | @width rows found narrow =>
    have uneven : (rows.any fun row => row.length != x.columns.length) = true := by
      simpa only [List.any_eq_true, bne_iff_ne] using narrow
    simp [sourceWritten, found, uneven]

theorem InsertSealed.marks {x x' : Insert Nat} (run : g.InsertSealed x x') (one : x.OneSource)
    (once : Once (marksOf x.segments)) :
    marksOf x'.segments = expandOrigins g.options.writeSource (g.insertWritten x)
      (marksOf x.segments) := by
  rw [marksOf_insert one] at once ⊢
  cases run with
  | @assignments as bare assignments =>
    have one' : ({ x with assignments := as } : Insert Nat).OneSource := by
      refine one.imp_right fun none => ?_
      rw [none] at assignments
      cases assignments with
      | derived => rfl
      | spliced _ spliced =>
        cases spliced
        rfl
    have written : g.insertWritten x = g.assignmentsWritten x.assignments := by
      rw [insertWritten, if_pos (by simp [bare])]
    rw [marksOf_insert one', written, expandOrigins_within _ once (within_assignmentMarks _),
      ← assignments.marks once.right.left]
    rfl
  | kept listed unsealed =>
    rw [unsealed.written listed, expandOrigins_none, marksOf_insert one]
  | @rows rows rows' listed plain found wide sealed =>
    have one' : ({ x with
        columns := g.expandColumns x.columns (g.columnSlots x.columns rows)
        source := withRows rows' x.source } : Insert Nat).OneSource := by
      refine one.imp_left fun none => ?_
      rw [none] at found
      cases found
    have wideSlots : ∀ row ∈ rows, row.length ≤ (g.columnSlots x.columns rows).length :=
      fun row member => by rw [length_columnSlots, wide row member]
    have even : (rows.any fun row => row.length != x.columns.length) = false := by
      simpa [List.any_eq_false] using wide
    have written : g.insertWritten x =
        rows.flatMap (rowWritten (g.columnSlots x.columns rows)) := by
      rw [insertWritten, if_neg (by simpa using listed), if_neg (by simp [plain]), sourceWritten,
        found]
      simp only [even, Bool.false_eq_true, if_false]
      rfl
    obtain ⟨front, back, around⟩ := marksAround found
    rw [around.marks, List.append_assoc, List.append_assoc] at once ⊢
    rw [marksOf_insert one', around.withRows, written,
      expandOrigins_within _ once (within_rowsMarks wideSlots),
      ← marks_rows sealed wideSlots once.right.left, List.append_assoc, List.append_assoc]
    rfl

theorem marksOf_update (x : Update Nat) :
    marksOf x.segments = (marksOf x.target.segments ++
      (if x.sourcesFirst then (segmentsSources x.sources).flatMap marksOf else [])) ++
      (itemMarks Assignment.value x.assignments ++
        ((if x.sourcesFirst then [] else (segmentsSources x.sources).flatMap marksOf) ++
          (marksOf (filterSegments x.filter) ++ rowMarks x.clauses))) := by
  obtain ⟨resolution, target, sourcesFirst, assignments, sources, filter, clauses⟩ := x
  cases sourcesFirst <;>
    simp [Update.segments, flatMap_segmentsAll, flatMap_segmentsAssignments, itemMarks]

/-- The placeholders of a sealed tree are printed where those of the input were, and pairs in the
place of those that are written. -/
theorem TreeSealed.marks {t t' : Statement Nat} (run : g.TreeSealed t t') (one : t.OneSource)
    (once : Once t.marks) :
    t'.marks = expandOrigins g.options.writeSource (g.written t) t.marks := by
  cases run with
  | insert insert => exact insert.marks one once
  | @update x as filter assignments filtered =>
    have marks : Statement.marks (.update x) = _ := marksOf_update x
    rw [marks] at once ⊢
    rw [written, expandOrigins_within _ once (within_assignmentMarks _),
      ← assignments.marks once.right.left, ← filtered.marks]
    exact marksOf_update _
  | @delete x filter filtered =>
    have same : Statement.marks (.delete { x with filter := filter }) =
        Statement.marks (.delete x) := by
      cases x
      simp [Statement.marks, Statement.segments, Delete.segments, filtered.marks]
    exact same.trans expandOrigins_none.symm
  | query query => exact query.marks.trans expandOrigins_none.symm
  | explain => exact expandOrigins_none.symm
  | other => exact expandOrigins_none.symm

end Sealing

end SealedColumns
