import SealedColumns.Proofs.Numbering
import SealedColumns.Sql.Printer

/-!
The canonical text of a statement with its placeholders left open. The text fixes an order of the
placeholders, which is not always the order in which they are visited: a source list may be printed
before what is visited first, and a frame may have its operands in another order.
-/
namespace SealedColumns.Sql

variable {ν : Type}

/-- A piece of text, or a placeholder that is printed as a question mark. -/
inductive Segment (ν : Type) where
  | text (text : String)
  | mark (origin : Option ν)

namespace Segment

def render : Segment ν → String
  | .text words => words
  | .mark _ => "?"

def origin? : Segment ν → Option (Option ν)
  | .text _ => none
  | .mark origin => some origin

end Segment

def textOf (ss : List (Segment ν)) : String := String.join (ss.map Segment.render)

def marksOf (ss : List (Segment ν)) : List (Option ν) := ss.filterMap Segment.origin?

section Lists

variable {xs ys : List (Segment ν)}

@[simp] theorem textOf_nil : textOf ([] : List (Segment ν)) = "" := rfl

@[simp] theorem textOf_text (text : String) : textOf (.text text :: xs) = text ++ textOf xs :=
  String.join_cons

@[simp] theorem textOf_append : textOf (xs ++ ys) = textOf xs ++ textOf ys := by
  rw [textOf, List.map_append, String.join_append]
  rfl

@[simp] theorem marksOf_nil : marksOf ([] : List (Segment ν)) = [] := rfl

@[simp] theorem marksOf_text (text : String) : marksOf (.text text :: xs) = marksOf xs := rfl

@[simp] theorem marksOf_append : marksOf (xs ++ ys) = marksOf xs ++ marksOf ys :=
  List.filterMap_append

end Lists

/-! Lists of printed parts, as in the text of a statement. -/

def between (separator : String) : List (List (Segment ν)) → List (Segment ν)
  | [] => []
  | [part] => part
  | part :: next :: rest => part ++ .text separator :: between separator (next :: rest)

def commaBetween (parts : List (List (Segment ν))) : List (Segment ν) := between ", " parts

def segmentsAfter (word : String) (parts : List (List (Segment ν))) : List (Segment ν) :=
  if parts.isEmpty then [] else .text word :: commaBetween parts

def spacedSegments (parts : List (List (Segment ν))) : List (Segment ν) :=
  parts.flatMap fun part => .text " " :: part

def Piece.segments (operands : List (List (Segment ν))) : Piece → List (Segment ν)
  | .text words => [.text words]
  | .operand index => operands[index]?.getD []

def frameSegments (frame : List Piece) (operands : List (List (Segment ν))) : List (Segment ν) :=
  frame.flatMap (Piece.segments operands)

def selectSegments (order : SelectOrder) (quantifiers projection sources : List (List (Segment ν)))
    (filter : List (Segment ν)) (clauses : List (List (Segment ν))) : List (Segment ν) :=
  let head := .text "SELECT" :: spacedSegments quantifiers ++ segmentsAfter " " projection
  let tail := filter ++ spacedSegments clauses
  match order with
  | .standard => head ++ segmentsAfter " FROM " sources ++ tail
  | .sourcesFirst => segmentsAfter "FROM " sources ++ .text " " :: head ++ tail
  | .sourcesOnly => segmentsAfter "FROM " sources ++ tail

section Parts

variable (parts : List (List (Segment ν)))

@[simp] theorem textOf_commaBetween :
    textOf (commaBetween parts) = commaJoin (parts.map textOf) := by
  unfold commaBetween commaJoin
  induction parts with
  | nil => rfl
  | cons part rest ih =>
    cases rest with
    | nil => rfl
    | cons next rest =>
      simp only [between, textOf_append, textOf_text, ih, List.map_cons,
        String.intercalate_cons_cons, String.append_assoc]

@[simp] theorem marksOf_commaBetween : marksOf (commaBetween parts) = parts.flatMap marksOf := by
  unfold commaBetween
  induction parts with
  | nil => rfl
  | cons part rest ih =>
    cases rest with
    | nil => simp [between]
    | cons next rest => rw [between, marksOf_append, marksOf_text, ih, ← List.flatMap_cons]

@[simp] theorem textOf_segmentsAfter (word : String) :
    textOf (segmentsAfter word parts) = listAfter word (parts.map textOf) := by
  cases parts with
  | nil => rfl
  | cons part rest => simp [segmentsAfter, listAfter]

@[simp] theorem marksOf_segmentsAfter (word : String) :
    marksOf (segmentsAfter word parts) = parts.flatMap marksOf := by
  cases parts with
  | nil => rfl
  | cons part rest => simp [segmentsAfter]

@[simp] theorem textOf_spacedSegments :
    textOf (spacedSegments parts) = spaced (parts.map textOf) := by
  unfold spacedSegments spaced
  induction parts with
  | nil => rfl
  | cons part rest ih =>
    simp only [List.flatMap_cons, textOf_append, textOf_text, ih, List.map_cons, String.join_cons]

@[simp] theorem marksOf_spacedSegments :
    marksOf (spacedSegments parts) = parts.flatMap marksOf := by
  unfold spacedSegments
  induction parts with
  | nil => rfl
  | cons part rest ih =>
    rw [List.flatMap_cons, marksOf_append, marksOf_text, ih, List.flatMap_cons]

theorem textOf_piece (piece : Piece) :
    textOf (piece.segments parts) = piece.render (parts.map textOf) := by
  cases piece with
  | text words => simp [Piece.segments, Piece.render]
  | operand index =>
    simp only [Piece.segments, Piece.render, List.getElem?_map]
    cases parts[index]? <;> rfl

@[simp] theorem textOf_frameSegments (frame : List Piece) :
    textOf (frameSegments frame parts) = renderFrame frame (parts.map textOf) := by
  unfold frameSegments renderFrame
  induction frame with
  | nil => rfl
  | cons piece frame ih =>
    simp only [List.flatMap_cons, textOf_append, textOf_piece, ih, List.map_cons, String.join_cons]

theorem textOf_selectSegments (order : SelectOrder)
    (quantifiers projection sources : List (List (Segment ν))) (filter : List (Segment ν))
    (clauses : List (List (Segment ν))) :
    textOf (selectSegments order quantifiers projection sources filter clauses) =
      renderSelect order (quantifiers.map textOf) (projection.map textOf) (sources.map textOf)
        (textOf filter) (clauses.map textOf) := by
  cases order <;> simp [selectSegments, renderSelect, String.append_assoc]

end Parts

def Value.segment : Value ν → Segment ν
  | .placeholder .anonymous => .mark none
  | .placeholder (.numbered ordinal) => .mark (some ordinal)
  | x => .text (Value.render (x.remark fun _ => .anonymous))

def escapeSegments : Option Value → List (Segment ν)
  | none => []
  | some value => [.text " ESCAPE ", (value.remark Empty.elim).segment]

mutual

def Expr.segments : Expr ν → List (Segment ν)
  | .column qualifier name => [.text (Name.render (qualifier ++ [name]))]
  | .value value => [value.segment]
  | .nested inner => .text "(" :: inner.segments ++ [.text ")"]
  | .unary op operand => .text op.text :: operand.segments
  | .isNull negated operand => operand.segments ++ [.text (" IS " ++ notWord negated ++ "NULL")]
  | .binary left op right =>
    left.segments ++ .text (" " ++ op.text ++ " ") :: right.segments
  | .pattern kind negated subject pattern escape =>
    subject.segments ++ .text (" " ++ notWord negated ++ kind.text ++ " ") :: pattern.segments ++
      escapeSegments escape
  | .inList negated subject items =>
    subject.segments ++ .text (" " ++ notWord negated ++ "IN (") ::
      commaBetween (segmentsAll items) ++ [.text ")"]
  | .inQuery negated subject query =>
    subject.segments ++ .text (" " ++ notWord negated ++ "IN (") :: query.segments ++ [.text ")"]
  | .call name quantifier args clauses tail =>
    .text (Name.render name ++ "(" ++ quantifier.elim "" Quantifier.text) ::
      commaBetween (segmentsAll args) ++ spacedSegments (segmentsAll clauses) ++ .text ")" ::
      spacedSegments (segmentsAll tail)
  | .argument name arrow value => .text (name.render ++ " " ++ arrow ++ " ") :: value.segments
  | .star qualifier => [.text (String.join (qualifier.map fun ident => ident.render ++ ".") ++ "*")]
  | .existence negated query =>
    .text (notWord negated ++ "EXISTS (") :: query.segments ++ [.text ")"]
  | .subquery query => .text "(" :: query.segments ++ [.text ")"]
  | .framed frame operands => frameSegments frame (segmentsAll operands)

def segmentsAll : List (Expr ν) → List (List (Segment ν))
  | [] => []
  | e :: es => e.segments :: segmentsAll es

def filterSegments : Option (Expr ν) → List (Segment ν)
  | none => []
  | some e => .text " WHERE " :: e.segments

def segmentsRows (word : String) : List (List (Expr ν)) → List (List (Segment ν))
  | [] => []
  | row :: rows =>
    (.text (word ++ "(") :: commaBetween (segmentsAll row) ++ [.text ")"]) :: segmentsRows word rows

def SelectItem.segments : SelectItem ν → List (Segment ν)
  | ⟨e, none⟩ => e.segments
  | ⟨e, some label⟩ => e.segments ++ [.text (" AS " ++ label.render)]

def segmentsItems : List (SelectItem ν) → List (List (Segment ν))
  | [] => []
  | item :: items => item.segments :: segmentsItems items

def Assignment.segments : Assignment ν → List (Segment ν)
  | ⟨target, value⟩ => .text (target.render ++ " = ") :: value.segments

def segmentsAssignments : List (Assignment ν) → List (List (Segment ν))
  | [] => []
  | a :: rest => a.segments :: segmentsAssignments rest

def TableFactor.segments : TableFactor ν → List (Segment ν)
  | .table name isCall args label =>
    .text (Name.render name) ::
      (if isCall then .text "(" :: commaBetween (segmentsAll args) ++ [.text ")"] else []) ++
      [.text (renderLabel label)]
  | .derived lateral query label =>
    .text ((if lateral then "LATERAL " else "") ++ "(") :: query.segments ++
      [.text (")" ++ renderLabel label)]
  | .nested item label => .text "(" :: item.segments ++ [.text (")" ++ renderLabel label)]

def Join.segments : Join ν → List (Segment ν)
  | ⟨kind, natural, relation, condition, shared⟩ =>
    .text ((if natural then " NATURAL " else " ") ++ kind.text ++ " ") :: relation.segments ++
      conditionSegments condition ++
      [.text (if shared.isEmpty then ""
        else " USING(" ++ commaJoin (shared.map Name.render) ++ ")")]

def conditionSegments : Option (Expr ν) → List (Segment ν)
  | none => []
  | some e => .text " ON " :: e.segments

def segmentsJoins : List (Join ν) → List (Segment ν)
  | [] => []
  | j :: js => j.segments ++ segmentsJoins js

def FromItem.segments : FromItem ν → List (Segment ν)
  | ⟨relation, joins⟩ => relation.segments ++ segmentsJoins joins

def segmentsSources : List (FromItem ν) → List (List (Segment ν))
  | [] => []
  | item :: items => item.segments :: segmentsSources items

def Select.segments : Select ν → List (Segment ν)
  | ⟨order, quantifiers, projection, sources, filter, clauses⟩ =>
    selectSegments order (segmentsAll quantifiers) (segmentsItems projection)
      (segmentsSources sources) (filterSegments filter) (segmentsAll clauses)

def SetExpr.segments : SetExpr ν → List (Segment ν)
  | .select select => select.segments
  | .query query => .text "(" :: query.segments ++ [.text ")"]
  | .operation op quantifier left right =>
    left.segments ++ .text (" " ++ op.text ++ quantifier.text ++ " ") :: right.segments
  | .values rowWord rows =>
    .text "VALUES " :: commaBetween (segmentsRows (if rowWord then "ROW" else "") rows)
  | .insert insert => insert.segments
  | .update update => update.segments
  | .delete delete => delete.segments

def Cte.segments : Cte ν → List (Segment ν)
  | ⟨name, columns, materialized, query⟩ =>
    let hint := match materialized with
      | none => ""
      | some true => "MATERIALIZED "
      | some false => "NOT MATERIALIZED "
    .text (name.render ++ columnList columns ++ " AS " ++ hint ++ "(") :: query.segments ++
      [.text ")"]

def segmentsCtes : List (Cte ν) → List (List (Segment ν))
  | [] => []
  | c :: cs => c.segments :: segmentsCtes cs

def Query.segments : Query ν → List (Segment ν)
  | ⟨recursive, ctes, body, clauses⟩ =>
    (if ctes.isEmpty then []
      else
        .text ("WITH " ++ (if recursive then "RECURSIVE " else "")) ::
          commaBetween (segmentsCtes ctes) ++ [.text " "]) ++
      body.segments ++ spacedSegments (segmentsAll clauses)

def segmentsQuery? : Option (Query ν) → List (Segment ν)
  | none => []
  | some query => query.segments

def Insert.segments : Insert ν → List (Segment ν)
  | ⟨verb, table, label, columns, source, assignments, rowAlias, conflict, updates, updateFilter,
      clauses⟩ =>
    .text (verb.render ++ " " ++ Name.render table ++
        (label.elim "" fun ident => " AS " ++ ident.render) ++ columnList columns) ::
      (if source.isSome then .text " " :: segmentsQuery? source
        else if assignments.isEmpty then
          [.text (if columns.isEmpty then " DEFAULT VALUES" else "")]
        else .text " SET " :: commaBetween (segmentsAssignments assignments)) ++
      .text (renderLabel rowAlias ++ conflict.render) ::
      commaBetween (segmentsAssignments updates) ++ filterSegments updateFilter ++
      spacedSegments (segmentsAll clauses)

def Update.segments : Update ν → List (Segment ν)
  | ⟨resolution, target, sourcesFirst, assignments, sources, filter, clauses⟩ =>
    let sources := segmentsAfter " FROM " (segmentsSources sources)
    .text ("UPDATE" ++ (resolution.elim "" fun word => " OR " ++ word) ++ " ") ::
      target.segments ++ (if sourcesFirst then sources else []) ++ .text " SET " ::
      commaBetween (segmentsAssignments assignments) ++ (if sourcesFirst then [] else sources) ++
      filterSegments filter ++ spacedSegments (segmentsAll clauses)

def Delete.segments : Delete ν → List (Segment ν)
  | ⟨targets, fromWord, sources, usingSources, filter, clauses⟩ =>
    .text ("DELETE" ++ listAfter " " (targets.map Name.render) ++
        (if fromWord then " FROM " else " ")) ::
      commaBetween (segmentsSources sources) ++
      segmentsAfter " USING " (segmentsSources usingSources) ++ filterSegments filter ++
      spacedSegments (segmentsAll clauses)

end

def Statement.segments : Statement ν → List (Segment ν)
  | .query q => q.segments
  | .insert x => x.segments
  | .update x => x.segments
  | .delete x => x.segments
  | .explain words statement => .text (words ++ " ") :: statement.segments
  | .other _ frame operands q => frameSegments frame (segmentsAll operands) ++ segmentsQuery? q

theorem textOf_value (x : Value Nat) (s : Unit) :
    textOf [x.segment] = (restoring.value x s).1.render := by
  cases x with
  | placeholder mark => cases mark <;> rfl
  | _ => simp [Value.segment, restoring]

theorem textOf_escapeSegments (escape : Option Value) :
    textOf (escapeSegments escape : List (Segment ν)) = match escape with
      | none => ""
      | some value => " ESCAPE " ++ value.render := by
  cases escape with
  | none => rfl
  | some value =>
    cases value with
    | placeholder mark =>
      cases mark with
      | anonymous => rfl
      | numbered ordinal => cases ordinal
      | named text => simp [escapeSegments, Value.segment, Value.remark, Value.render]
    | _ => simp [escapeSegments, Value.segment, Value.remark]

theorem isEmpty_walkCtes {μ σ : Type} (v : Visitor ν μ σ) (cs : List (Cte ν)) (s : σ) :
    (walkCtes v cs s).1.isEmpty = cs.isEmpty := by
  cases cs <;> rfl

theorem isEmpty_walkAssignments {μ σ : Type} (v : Visitor ν μ σ) (as : List (Assignment ν))
    (s : σ) : (walkAssignments v as s).1.isEmpty = as.isEmpty := by
  cases as <;> rfl

theorem isSome_walkQuery? {μ σ : Type} (v : Visitor ν μ σ) (q : Option (Query ν)) (s : σ) :
    (walkQuery? v q s).1.isSome = q.isSome := by
  cases q <;> rfl

-- The pieces of any part make up its text with the placeholders restored.
mutual

theorem Expr.textOf_segments : ∀ (e : Expr Nat) (s : Unit),
    textOf e.segments = (e.walk restoring s).1.render
  | .column _ _, s => by simp [Expr.segments, Expr.walk, Expr.render]
  | .value x, s => textOf_value x s
  | .nested e, s | .argument _ _ e, s | .isNull _ e, s | .unary _ e, s => by
    simp [Expr.segments, Expr.walk, Expr.render, ← e.textOf_segments, String.append_assoc]
  | .binary left _ right, s => by
    simp [Expr.segments, Expr.walk, Expr.render, ← left.textOf_segments, ← right.textOf_segments,
      String.append_assoc]
  | .pattern _ _ e p escape, s => by
    cases escape <;>
      simp [Expr.segments, Expr.walk, Expr.render, ← e.textOf_segments, ← p.textOf_segments,
        textOf_escapeSegments, String.append_assoc]
  | .inList _ e items, s => by
    simp [Expr.segments, Expr.walk, Expr.render, ← e.textOf_segments, ← texts_segmentsAll items,
      String.append_assoc]
  | .inQuery _ e q, s => by
    simp [Expr.segments, Expr.walk, Expr.render, ← e.textOf_segments, ← q.textOf_segments,
      String.append_assoc]
  | .call _ _ args clauses tail, s => by
    simp [Expr.segments, Expr.walk, Expr.render, ← texts_segmentsAll args,
      ← texts_segmentsAll clauses, ← texts_segmentsAll tail, String.append_assoc]
  | .star _, s => by simp [Expr.segments, Expr.walk, Expr.render]
  | .existence _ q, s | .subquery q, s => by
    simp [Expr.segments, Expr.walk, Expr.render, ← q.textOf_segments, String.append_assoc]
  | .framed _ es, s => by
    simp [Expr.segments, Expr.walk, Expr.render, ← texts_segmentsAll es]

theorem texts_segmentsAll : ∀ (es : List (Expr Nat)) (s : Unit),
    (segmentsAll es).map textOf = renderExprs (walkExprs restoring es s).1
  | [], s => rfl
  | e :: es, s => by
    simp [segmentsAll, walkExprs, renderExprs, ← e.textOf_segments, ← texts_segmentsAll es]

theorem textOf_filterSegments : ∀ (filter : Option (Expr Nat)) (s : Unit),
    textOf (filterSegments filter) = renderFilter (walkOption restoring filter s).1
  | none, s => rfl
  | some e, s => by simp [filterSegments, walkOption, renderFilter, ← e.textOf_segments]

theorem texts_segmentsRows (word : String) : ∀ (rows : List (List (Expr Nat))) (s : Unit),
    (segmentsRows word rows).map textOf = renderRows word (walkRows restoring rows s).1
  | [], s => rfl
  | row :: rows, s => by
    simp [segmentsRows, walkRows, renderRows, ← texts_segmentsAll row,
      ← texts_segmentsRows word rows, String.append_assoc]

theorem SelectItem.textOf_segments : ∀ (item : SelectItem Nat) (s : Unit),
    textOf item.segments = (item.walk restoring s).1.render
  | ⟨e, none⟩, s => by
    simp [SelectItem.segments, SelectItem.walk, SelectItem.render, ← e.textOf_segments]
  | ⟨e, some _⟩, s => by
    simp [SelectItem.segments, SelectItem.walk, SelectItem.render, ← e.textOf_segments,
      String.append_assoc]

theorem texts_segmentsItems : ∀ (items : List (SelectItem Nat)) (s : Unit),
    (segmentsItems items).map textOf = renderItems (walkItems restoring items s).1
  | [], s => rfl
  | item :: items, s => by
    simp [segmentsItems, walkItems, renderItems, ← item.textOf_segments,
      ← texts_segmentsItems items]

theorem Assignment.textOf_segments : ∀ (a : Assignment Nat) (s : Unit),
    textOf a.segments = (a.walk restoring s).1.render
  | ⟨_, e⟩, s => by
    simp [Assignment.segments, Assignment.walk, Assignment.render, ← e.textOf_segments]

theorem texts_segmentsAssignments : ∀ (as : List (Assignment Nat)) (s : Unit),
    (segmentsAssignments as).map textOf = renderAssignments (walkAssignments restoring as s).1
  | [], s => rfl
  | a :: rest, s => by
    simp [segmentsAssignments, walkAssignments, renderAssignments, ← a.textOf_segments,
      ← texts_segmentsAssignments rest]

theorem TableFactor.textOf_segments : ∀ (factor : TableFactor Nat) (s : Unit),
    textOf factor.segments = (factor.walk restoring s).1.render
  | .table _ isCall args _, s => by
    cases isCall <;>
      simp [TableFactor.segments, TableFactor.walk, TableFactor.render, ← texts_segmentsAll args,
        String.append_assoc]
  | .derived _ q _, s => by
    simp [TableFactor.segments, TableFactor.walk, TableFactor.render, ← q.textOf_segments,
      String.append_assoc]
  | .nested item _, s => by
    simp [TableFactor.segments, TableFactor.walk, TableFactor.render, ← item.textOf_segments,
      String.append_assoc]

theorem Join.textOf_segments : ∀ (j : Join Nat) (s : Unit),
    textOf j.segments = (j.walk restoring s).1.render
  | ⟨_, _, relation, none, _⟩, s => by
    simp [Join.segments, Join.walk, Join.render, ← relation.textOf_segments, conditionSegments,
      walkOption, String.append_assoc]
  | ⟨_, _, relation, some e, _⟩, s => by
    simp [Join.segments, Join.walk, Join.render, ← relation.textOf_segments, conditionSegments,
      walkOption, ← e.textOf_segments, String.append_assoc]

theorem textOf_segmentsJoins : ∀ (js : List (Join Nat)) (s : Unit),
    textOf (segmentsJoins js) = renderJoins (walkJoins restoring js s).1
  | [], s => rfl
  | j :: js, s => by
    simp [segmentsJoins, walkJoins, renderJoins, ← j.textOf_segments, ← textOf_segmentsJoins js]

theorem FromItem.textOf_segments : ∀ (item : FromItem Nat) (s : Unit),
    textOf item.segments = (item.walk restoring s).1.render
  | ⟨relation, joins⟩, s => by
    simp [FromItem.segments, FromItem.walk, FromItem.render, ← relation.textOf_segments,
      ← textOf_segmentsJoins joins]

theorem texts_segmentsSources : ∀ (items : List (FromItem Nat)) (s : Unit),
    (segmentsSources items).map textOf = renderSources (walkSources restoring items s).1
  | [], s => rfl
  | item :: items, s => by
    simp [segmentsSources, walkSources, renderSources, ← item.textOf_segments,
      ← texts_segmentsSources items]

theorem Select.textOf_segments : ∀ (x : Select Nat) (s : Unit),
    textOf x.segments = (x.walk restoring s).1.render
  | ⟨_, quantifiers, projection, sources, filter, clauses⟩, s => by
    simp [Select.segments, Select.walk, Select.render, textOf_selectSegments,
      ← texts_segmentsAll quantifiers, ← texts_segmentsItems projection,
      ← texts_segmentsSources sources, ← textOf_filterSegments filter, ← texts_segmentsAll clauses]

theorem SetExpr.textOf_segments : ∀ (body : SetExpr Nat) (s : Unit),
    textOf body.segments = (body.walk restoring s).1.render
  | .select x, s | .insert x, s | .update x, s | .delete x, s => by
    simp [SetExpr.segments, SetExpr.walk, SetExpr.render, ← x.textOf_segments]
  | .query q, s => by
    simp [SetExpr.segments, SetExpr.walk, SetExpr.render, ← q.textOf_segments, String.append_assoc]
  | .operation _ _ left right, s => by
    simp [SetExpr.segments, SetExpr.walk, SetExpr.render, ← left.textOf_segments,
      ← right.textOf_segments, String.append_assoc]
  | .values _ rows, s => by
    simp [SetExpr.segments, SetExpr.walk, SetExpr.render, ← texts_segmentsRows _ rows]

theorem Cte.textOf_segments : ∀ (c : Cte Nat) (s : Unit),
    textOf c.segments = (c.walk restoring s).1.render
  | ⟨_, _, materialized, q⟩, s => by
    rcases materialized with _ | _ | _ <;>
      simp [Cte.segments, Cte.walk, Cte.render, renderCte, ← q.textOf_segments,
        String.append_assoc]

theorem texts_segmentsCtes : ∀ (cs : List (Cte Nat)) (s : Unit),
    (segmentsCtes cs).map textOf = renderCtes (walkCtes restoring cs s).1
  | [], s => rfl
  | c :: cs, s => by
    simp [segmentsCtes, walkCtes, renderCtes, ← c.textOf_segments, ← texts_segmentsCtes cs]

theorem Query.textOf_segments : ∀ (q : Query Nat) (s : Unit),
    textOf q.segments = (q.walk restoring s).1.render
  | ⟨_, ctes, body, clauses⟩, s => by
    have given := texts_segmentsCtes ctes
    simp only [Query.segments, Query.walk, Query.render, isEmpty_walkCtes, textOf_append,
      textOf_spacedSegments, ← body.textOf_segments, ← texts_segmentsAll clauses]
    split <;> simp [← given, String.append_assoc]

theorem textOf_segmentsQuery? : ∀ (q : Option (Query Nat)) (s : Unit),
    textOf (segmentsQuery? q) = renderQuery? (walkQuery? restoring q s).1
  | none, s => rfl
  | some q, s => by simp [segmentsQuery?, walkQuery?, renderQuery?, ← q.textOf_segments]

theorem Insert.textOf_segments : ∀ (x : Insert Nat) (s : Unit),
    textOf x.segments = (x.walk restoring s).1.render
  | ⟨_, _, _, _, source, assignments, _, _, updates, updateFilter, clauses⟩, s => by
    have given := textOf_segmentsQuery? source
    have listed := texts_segmentsAssignments assignments
    simp only [Insert.segments, Insert.walk, Insert.render, isSome_walkQuery?,
      isEmpty_walkAssignments, textOf_append, textOf_text, textOf_spacedSegments,
      textOf_commaBetween, ← texts_segmentsAssignments updates,
      ← textOf_filterSegments updateFilter, ← texts_segmentsAll clauses]
    split
    · simp [← given, String.append_assoc]
    · split <;> simp [← listed, String.append_assoc]

theorem Update.textOf_segments : ∀ (x : Update Nat) (s : Unit),
    textOf x.segments = (x.walk restoring s).1.render
  | ⟨_, target, sourcesFirst, assignments, sources, filter, clauses⟩, s => by
    cases sourcesFirst <;>
      simp [Update.segments, Update.walk, Update.render_mk, ← target.textOf_segments,
        ← texts_segmentsAssignments assignments, ← texts_segmentsSources sources,
        ← textOf_filterSegments filter, ← texts_segmentsAll clauses, String.append_assoc]

theorem Delete.textOf_segments : ∀ (x : Delete Nat) (s : Unit),
    textOf x.segments = (x.walk restoring s).1.render
  | ⟨_, _, sources, usingSources, filter, clauses⟩, s => by
    simp [Delete.segments, Delete.walk, Delete.render, ← texts_segmentsSources sources,
      ← texts_segmentsSources usingSources, ← textOf_filterSegments filter,
      ← texts_segmentsAll clauses, String.append_assoc]

end

/-- The pieces of a statement make up its canonical text. -/
theorem Statement.textOf_segments (t : Statement Nat) : textOf t.segments = t.restore.render := by
  have walked : ∀ s, textOf t.segments = (t.walk restoring s).1.render := by
    induction t with
    | query q => exact q.textOf_segments
    | insert x => exact x.textOf_segments
    | update x => exact x.textOf_segments
    | delete x => exact x.textOf_segments
    | explain words t ih =>
      intro s
      simp [Statement.segments, Statement.walk, Statement.render, ← ih, String.append_assoc]
    | other tables frame operands q =>
      intro s
      simp [Statement.segments, Statement.walk, Statement.render, ← texts_segmentsAll operands,
        ← textOf_segmentsQuery? q]
  exact walked ()

end SealedColumns.Sql
