import SealedColumns.Proofs.Plan
import SealedColumns.Proofs.Trace

/-!
Sealing of what INSERT and UPDATE write is a trace of writes, the planned ones, and it puts a pair
of anonymous placeholders in the place of each placeholder that is written.
-/
namespace SealedColumns

open Sql

theorem visitsAll_eq (es : List (Expr Nat)) : visitsAll es = es.flatMap Expr.visits := by
  induction es with
  | nil => rfl
  | cons e es ih => rw [visitsAll, ih, List.flatMap_cons]

theorem visitsAssignments_eq (as : List (Assignment Nat)) :
    visitsAssignments as = as.flatMap fun a => a.value.visits := by
  induction as with
  | nil => rfl
  | cons a as ih =>
    cases a
    rw [visitsAssignments, ih, List.flatMap_cons, Assignment.visits]

namespace Sealing

variable {g : Sealing} {d d' : Draft}

def writing (ns : List Nat) : List Act := ns.map .write

theorem writing_append (ns ms : List Nat) : writing (ns ++ ms) = writing ns ++ writing ms :=
  List.map_append

/-- What stands in the place of a value is a pair with an anonymous placeholder for each one in the
value. -/
structure Replaced (keep : Bool) (e target index : Expr Nat) : Prop where
  origins : (if keep then originsOf e.visits else []) ++
      (originsOf target.visits ++ originsOf index.visits) =
    expandOrigins keep e.ordinal?.toList (originsOf e.visits)

theorem sealOperand_trace {keep : Bool} {v : Value Nat} {operand : Operand}
    {target index : Expr Nat}
    (known : Operand.ofValue? v = some operand)
    (run : (g.sealOperand operand).Gives d (target, index) d') :
    Replaced keep (.value v) target index ∧ g.Trace (writing v.ordinal?.toList) d d' := by
  cases v with
  | placeholder mark =>
    cases mark with
    | numbered n =>
      cases known
      have steps : (g.act (.write n)).Gives d () d' ∧ Expr.anonymous = target ∧
          Expr.anonymous = index := by
        simp only [sealOperand, act, Seal.gives_bind, Seal.gives_pure, Prod.mk.injEq] at run ⊢
        obtain ⟨value, _, read, plain, _, text, pair, _, sealed, _, _, bound, ⟨rfl, rfl⟩,
          rfl⟩ := run
        exact ⟨⟨value, _, read, plain, _, text, pair, _, sealed, bound⟩, rfl, rfl⟩
      obtain ⟨step, rfl, rfl⟩ := steps
      refine ⟨⟨?_⟩, .single step⟩
      cases keep <;> simp [Expr.anonymous, Expr.ordinal?, Value.ordinal?, Expr.visits,
        originsOf_value, Value.origin?, expandOrigins]
    | _ => cases known
  | string text =>
    cases known
    simp only [sealOperand, sealText, Seal.gives_bind, Seal.gives_pure, gives_encrypt, gives_index,
      Prod.mk.injEq] at run
    obtain ⟨_, _, ⟨_, _, ⟨_, rfl⟩, _, _, ⟨_, rfl⟩, rfl, rfl⟩, ⟨rfl, rfl⟩, rfl⟩ := run
    exact ⟨⟨by cases keep <;> rfl⟩, .still rfl (g.handler.encrypt_sameNames _ _)⟩
  | number text long =>
    cases known
    simp only [sealOperand, sealText, Seal.gives_bind, Seal.gives_pure, gives_encrypt, gives_index,
      Prod.mk.injEq] at run
    obtain ⟨_, _, ⟨_, _, ⟨_, rfl⟩, _, _, ⟨_, rfl⟩, rfl, rfl⟩, ⟨rfl, rfl⟩, rfl⟩ := run
    exact ⟨⟨by cases keep <;> rfl⟩, .still rfl (g.handler.encrypt_sameNames _ _)⟩
  | null =>
    cases known
    simp only [sealOperand, Seal.gives_pure, Prod.mk.injEq] at run
    obtain ⟨⟨rfl, rfl⟩, rfl⟩ := run
    exact ⟨⟨by cases keep <;> rfl⟩, .done d⟩
  | _ => cases known

theorem sealValue_trace {keep : Bool} {e target index : Expr Nat}
    (run : (g.sealValue e).Gives d (target, index) d') :
    Replaced keep e target index ∧ g.Trace (writing e.ordinal?.toList) d d' := by
  unfold sealValue at run
  split at run
  · rename_i operand known
    cases e with
    | value v => exact sealOperand_trace known run
    | _ => cases known
  · exact absurd run (Seal.gives_fail _ _ _ _)

theorem sealAssignment_trace {keep : Bool} {column : SensitiveColumn}
    {a target index : Assignment Nat}
    (run : (g.sealAssignment column a).Gives d (target, index) d') :
    Replaced keep a.value target.value index.value ∧
      g.Trace (writing a.value.ordinal?.toList) d d' := by
  simp only [sealAssignment, Seal.gives_bind, Seal.gives_pure, Prod.mk.injEq] at run
  obtain ⟨⟨t, i⟩, _, first, ⟨rfl, rfl⟩, rfl⟩ := run
  exact sealValue_trace first

section Expansion

variable {α β : Type} (value : α → Expr Nat) {derive : β → α → Seal (α × α)} {keep : Bool}

def itemOrigins (items : List α) : List (Option Nat) :=
  originsOf (items.flatMap fun x => (value x).visits)

theorem itemOrigins_cons (item : α) (items : List α) :
    itemOrigins value (item :: items) =
      originsOf (value item).visits ++ itemOrigins value items := by
  simp only [itemOrigins, List.flatMap_cons, originsOf_append]

theorem within_ordinal? (e : Expr Nat) :
    Within e.ordinal?.toList (originsOf e.visits) := fun n => by
  cases e with
  | value x => exact Nat.le_of_eq (count_ordinal? n x)
  | _ => exact Nat.zero_le _

theorem within_slotted (items : List (α × Option β)) :
    Within (slotted value items) (itemOrigins value (items.map Prod.fst)) := fun n => by
  rw [itemOrigins, List.flatMap_map]
  exact count_slotted n value items

theorem expand_trace
    (derived : ∀ {slot : β} {item target index : α} {d d' : Draft},
      (derive slot item).Gives d (target, index) d' →
        Replaced keep (value item) (value target) (value index) ∧
          g.Trace (writing (value item).ordinal?.toList) d d')
    {items : List (α × Option β)} {out : List α}
    (once : Once (itemOrigins value (items.map Prod.fst)))
    (run : (expand keep derive items).Gives d out d') :
    itemOrigins value out =
        expandOrigins keep (slotted value items) (itemOrigins value (items.map Prod.fst)) ∧
      g.Trace (writing (slotted value items)) d d' := by
  -- On the items; `once` keeps the ordinals of one item out of the others.
  induction items generalizing out d with
  | nil =>
    simp only [expand, Seal.gives_pure] at run
    obtain ⟨rfl, rfl⟩ := run
    exact ⟨rfl, .done d⟩
  | cons x items ih =>
    obtain ⟨item, slot⟩ := x
    rw [List.map_cons, itemOrigins_cons] at once ⊢
    have later := within_slotted value items
    cases slot with
    | none =>
      simp only [expand, Seal.gives_bind, Seal.gives_pure] at run
      obtain ⟨rest, _, first, rfl, rfl⟩ := run
      obtain ⟨origins, trace⟩ := ih once.right first
      refine ⟨?_, trace⟩
      have parts := expandOrigins_parts keep once .nil later
      rw [List.nil_append, expandOrigins_none] at parts
      rw [itemOrigins_cons, origins]
      exact parts.symm
    | some slot =>
      simp only [expand, Seal.gives_bind, Seal.gives_pure] at run
      obtain ⟨⟨target, index⟩, _, pair, rest, _, first, rfl, rfl⟩ := run
      obtain ⟨replaced, start⟩ := derived pair
      obtain ⟨origins, trace⟩ := ih once.right first
      have parts := expandOrigins_parts keep once (within_ordinal? _) later
      have split : slotted value ((item, some slot) :: items) =
          (value item).ordinal?.toList ++ slotted value items := by
        simp [slotted]
      rw [split, writing_append, parts, ← replaced.origins, ← origins]
      refine ⟨?_, start.append trace⟩
      cases keep <;> simp [itemOrigins_cons]

end Expansion

theorem mapM_still {α β : Type} {f : α → Seal β} {choice : α → β}
    (chosen : ∀ {a : α} {b : β} {d d' : Draft}, (f a).Gives d b d' → b = choice a ∧ g.Trace [] d d')
    {xs : List α} {ys : List β} (run : (xs.mapM f).Gives d ys d') :
    ys = xs.map choice ∧ g.Trace [] d d' := by
  induction xs generalizing ys d with
  | nil =>
    simp only [List.mapM_nil, Seal.gives_pure] at run
    obtain ⟨rfl, rfl⟩ := run
    exact ⟨rfl, .done d⟩
  | cons x xs ih =>
    simp only [List.mapM_cons, Seal.gives_bind, Seal.gives_pure] at run
    obtain ⟨y, _, first, rest, _, second, rfl, rfl⟩ := run
    obtain ⟨rfl, trace⟩ := chosen first
    obtain ⟨rfl, more⟩ := ih second
    exact ⟨rfl, trace.append more⟩

/-- A column without a value that is understood is skipped with a note. -/
theorem slot_choice {column? slot : Option SensitiveColumn} {supported : Bool} {event : Event}
    (run : Seal.Gives (match column? with
      | none => pure none
      | some column => if supported then pure (some column) else do
        Seal.note event
        return none) d slot d') :
    slot = (column?.filter fun _ => supported) ∧ g.Trace [] d d' := by
  cases column? with
  | none =>
    simp only [Seal.gives_pure] at run
    obtain ⟨rfl, rfl⟩ := run
    exact ⟨rfl, .done d⟩
  | some column =>
    cases supported with
    | true =>
      simp only [if_true, Seal.gives_pure] at run
      obtain ⟨rfl, rfl⟩ := run
      exact ⟨rfl, .done d⟩
    | false =>
      simp only [Bool.false_eq_true, if_false, Seal.gives_bind, Seal.gives_note,
        Seal.gives_pure] at run
      obtain ⟨_, _, rfl, rfl, rfl⟩ := run
      exact ⟨rfl, .still rfl (.refl _)⟩

theorem assignmentSlot_choice {a : Assignment Nat} {slot : Option SensitiveColumn}
    (run : (g.assignmentSlot a).Gives d slot d') :
    slot = g.assignmentSlot? a ∧ g.Trace [] d d' := slot_choice run

theorem columnSlot_choice {rows : List (List (Expr Nat))} {position : Nat} {ident : Ident}
    {slot : Option SensitiveColumn} (run : (g.columnSlot rows position ident).Gives d slot d') :
    slot = g.columnSlot? rows position ident ∧ g.Trace [] d d' := slot_choice run

theorem sealAssignments_trace {as as' : List (Assignment Nat)}
    (once : Once (originsOf (visitsAssignments as)))
    (run : (g.sealAssignments as).Gives d as' d') :
    originsOf (visitsAssignments as') = expandOrigins g.options.writeSource
        (g.assignmentsWritten as) (originsOf (visitsAssignments as)) ∧
      g.Trace (writing (g.assignmentsWritten as)) d d' := by
  unfold sealAssignments at run
  unfold assignmentsWritten
  split at run
  · rename_i derived
    simp only [Seal.gives_bind, Seal.gives_note, Seal.gives_pure] at run
    obtain ⟨_, _, rfl, rfl, rfl⟩ := run
    rw [if_pos derived, expandOrigins_none]
    exact ⟨rfl, .still rfl (.refl _)⟩
  · rename_i plain
    simp only [Seal.gives_bind] at run
    obtain ⟨slots, _, first, second⟩ := run
    obtain ⟨rfl, start⟩ := mapM_still assignmentSlot_choice first
    have names : (as.zip (as.map g.assignmentSlot?)).map Prod.fst = as :=
      List.map_fst_zip (by simp)
    rw [visitsAssignments_eq] at once
    have expanded := expand_trace Assignment.value sealAssignment_trace
      (by rw [names]; exact once) second
    rw [names] at expanded
    rw [if_neg plain, visitsAssignments_eq, visitsAssignments_eq]
    exact ⟨expanded.1, start.append expanded.2⟩

theorem sealRow_trace {slots : List (Option SensitiveColumn)} {row row' : List (Expr Nat)}
    (wide : row.length ≤ slots.length) (once : Once (originsOf (visitsAll row)))
    (run : (g.sealRow slots row).Gives d row' d') :
    originsOf (visitsAll row') = expandOrigins g.options.writeSource
        (slotted id (row.zip slots)) (originsOf (visitsAll row)) ∧
      g.Trace (writing (slotted id (row.zip slots))) d d' := by
  have values : (row.zip slots).map Prod.fst = row := List.map_fst_zip wide
  rw [visitsAll_eq] at once
  have expanded := expand_trace id sealValue_trace (by rw [values]; exact once) run
  rw [values] at expanded
  rw [visitsAll_eq, visitsAll_eq]
  exact expanded

theorem within_row {slots : List (Option SensitiveColumn)} {row : List (Expr Nat)}
    (wide : row.length ≤ slots.length) :
    Within (slotted id (row.zip slots)) (originsOf (visitsAll row)) := by
  have inside := within_slotted id (row.zip slots)
  rw [List.map_fst_zip wide] at inside
  rw [visitsAll_eq]
  exact inside

theorem within_rows {slots : List (Option SensitiveColumn)} {rows : List (List (Expr Nat))}
    (wide : ∀ row ∈ rows, row.length ≤ slots.length) :
    Within (rows.flatMap fun row => slotted id (row.zip slots)) (originsOf (visitsRows rows)) := by
  induction rows with
  | nil => exact .nil
  | cons row rows ih =>
    rw [visitsRows, originsOf_append, List.flatMap_cons]
    have here := within_row (wide row List.mem_cons_self)
    exact here.append (ih fun r member => wide r (List.mem_cons_of_mem _ member))

theorem sealRows_trace {slots : List (Option SensitiveColumn)} {rows rows' : List (List (Expr Nat))}
    (wide : ∀ row ∈ rows, row.length ≤ slots.length) (once : Once (originsOf (visitsRows rows)))
    (run : (rows.mapM (g.sealRow slots)).Gives d rows' d') :
    originsOf (visitsRows rows') = expandOrigins g.options.writeSource
        (rows.flatMap fun row => slotted id (row.zip slots)) (originsOf (visitsRows rows)) ∧
      g.Trace (writing (rows.flatMap fun row => slotted id (row.zip slots))) d d' := by
  induction rows generalizing rows' d with
  | nil =>
    simp only [List.mapM_nil, Seal.gives_pure] at run
    obtain ⟨rfl, rfl⟩ := run
    exact ⟨rfl, .done d⟩
  | cons row rows ih =>
    simp only [List.mapM_cons, Seal.gives_bind, Seal.gives_pure] at run
    obtain ⟨head, _, first, tail, _, second, rfl, rfl⟩ := run
    rw [visitsRows, originsOf_append] at once
    have wideHere := wide row List.mem_cons_self
    have wideLater : ∀ r ∈ rows, r.length ≤ slots.length := fun r member =>
      wide r (List.mem_cons_of_mem _ member)
    obtain ⟨origins, trace⟩ := sealRow_trace wideHere once.left first
    obtain ⟨originsRest, rest⟩ := ih wideLater once.right second
    rw [List.flatMap_cons, writing_append, visitsRows, visitsRows, originsOf_append,
      originsOf_append, origins, originsRest]
    refine ⟨?_, trace.append rest⟩
    exact (expandOrigins_parts _ once (within_row wideHere) (within_rows wideLater)).symm

theorem within_assignmentsWritten (as : List (Assignment Nat)) :
    Within (g.assignmentsWritten as) (originsOf (visitsAssignments as)) := by
  unfold assignmentsWritten
  split
  · exact .nil
  · have inside := within_slotted Assignment.value (as.zip (as.map g.assignmentSlot?))
    rw [List.map_fst_zip (by simp)] at inside
    rw [visitsAssignments_eq]
    exact inside

theorem length_columnSlots (columns : List Ident) (rows : List (List (Expr Nat))) :
    (g.columnSlots columns rows).length = columns.length := by
  simp [columnSlots]

/-- The rows of an INSERT that is as wide as its column list. -/
theorem wide_columnSlots {columns : List Ident} {rows : List (List (Expr Nat))}
    (wide : ¬ (rows.any fun row => row.length != columns.length) = true) :
    ∀ row ∈ rows, row.length ≤ (g.columnSlots columns rows).length := by
  simp only [List.any_eq_true, bne_iff_ne, not_exists, not_and, Decidable.not_not] at wide
  intro row member
  rw [length_columnSlots]
  exact Nat.le_of_eq (wide row member)

/-- The source of an INSERT around its rows. -/
structure RowsAround (source : Option (Query Nat)) (rows : List (List (Expr Nat)))
    (front back : List (Visit Nat)) : Prop where
  visits : visitsQuery? source = front ++ (visitsRows rows ++ back)
  withRows : ∀ rows', visitsQuery? (withRows rows' source) = front ++ (visitsRows rows' ++ back)

theorem rowsAround {source : Option (Query Nat)} {rows : List (List (Expr Nat))}
    (found : rowsOf? source = some rows) : ∃ front back, RowsAround source rows front back := by
  unfold rowsOf? at found
  split at found
  · rename_i recursive ctes rowWord inner clauses
    cases found
    refine ⟨visitsCtes ctes, visitsAll clauses, ?_, fun rows' => ?_⟩ <;>
      simp only [withRows, visitsQuery?, Query.visits, SetExpr.visits, List.append_assoc]
  · cases found

end Sealing

/-- What an INSERT visits besides what it writes. -/
def Sql.Insert.rest (x : Insert Nat) : List (Visit Nat) :=
  visitsAssignments x.updates ++ visitsOption x.updateFilter ++ visitsAll x.clauses

theorem Sql.Insert.origins_eq (x : Insert Nat) :
    originsOf x.visits = originsOf (visitsQuery? x.source) ++
      (originsOf (visitsAssignments x.assignments) ++ originsOf x.rest) := by
  cases x
  simp only [Insert.visits, Insert.rest, originsOf_table, originsOf_append, List.append_assoc]

namespace Sealing

variable {g : Sealing} {d d' : Draft}

theorem sealInsertRows_trace {x x' : Insert Nat} {rows : List (List (Expr Nat))}
    (found : rowsOf? x.source = some rows)
    (wide : ¬ (rows.any fun row => row.length != x.columns.length) = true)
    (once : Once (originsOf x.visits)) (run : (g.sealInsertRows x rows).Gives d x' d') :
    originsOf x'.visits = expandOrigins g.options.writeSource (g.rowsWritten x.columns rows)
        (originsOf x.visits) ∧
      g.Trace (writing (g.rowsWritten x.columns rows)) d d' := by
  simp only [sealInsertRows, Seal.gives_bind, Seal.gives_pure] at run
  obtain ⟨slots, _, first, rows', _, second, rfl, rfl⟩ := run
  obtain ⟨rfl, start⟩ := mapM_still (fun chosen => columnSlot_choice chosen) first
  obtain ⟨front, back, around⟩ := rowsAround found
  have wideRows := wide_columnSlots (g := g) wide
  have before : originsOf x.visits = originsOf front ++ (originsOf (visitsRows rows) ++
      (originsOf back ++ (originsOf (visitsAssignments x.assignments) ++ originsOf x.rest))) := by
    simp only [Insert.origins_eq, around.visits, originsOf_append, List.append_assoc]
  rw [before] at once ⊢
  obtain ⟨origins, trace⟩ := sealRows_trace wideRows once.right.left second
  refine ⟨?_, start.append trace⟩
  rw [rowsWritten, expandOrigins_within _ once (within_rows wideRows), Insert.origins_eq]
  simp only [around.withRows, originsOf_append, List.append_assoc]
  rw [origins]
  rfl

theorem within_sourceWritten (columns : List Ident) (source : Option (Query Nat)) :
    Within (g.sourceWritten columns source) (originsOf (visitsQuery? source)) := fun n => by
  unfold sourceWritten
  split
  · rename_i rows found
    split
    · exact Nat.zero_le _
    · rename_i wide
      obtain ⟨front, back, around⟩ := rowsAround found
      have inside : (g.rowsWritten columns rows).count n ≤ _ :=
        within_rows (wide_columnSlots wide) n
      rw [around.visits, originsOf_append, originsOf_append, List.count_append, List.count_append]
      omega
  · exact Nat.zero_le _

theorem within_insertWritten (x : Insert Nat) :
    Within (g.insertWritten x) (originsOf x.visits) := fun n => by
  have fromSource := within_sourceWritten (g := g) x.columns x.source n
  have fromAssignments := within_assignmentsWritten (g := g) x.assignments n
  rw [Insert.origins_eq, List.count_append, List.count_append]
  unfold insertWritten
  split
  · omega
  · split
    · exact Nat.zero_le _
    · omega

theorem rowsWritten_plain {columns : List Ident} {rows : List (List (Expr Nat))}
    (plain : (columns.all fun ident => (g.active.get? ident).isNone) = true) :
    g.rowsWritten columns rows = [] := by
  have empty : ∀ slot ∈ g.columnSlots columns rows, slot = none := by
    intro slot member
    obtain ⟨⟨ident, position⟩, place, rfl⟩ := List.mem_map.mp member
    have known := List.all_eq_true.mp plain ident (List.fst_mem_of_mem_zipIdx place)
    simp [columnSlot?, Option.isNone_iff_eq_none.mp known]
  rw [rowsWritten, List.flatMap_eq_nil_iff]
  intro row _
  rw [slotted, List.flatMap_eq_nil_iff]
  rintro ⟨item, slot⟩ pair
  rw [empty slot (List.of_mem_zip pair).2]
  rfl

theorem sourceWritten_plain {columns : List Ident} {source : Option (Query Nat)}
    (plain : (columns.all fun ident => (g.active.get? ident).isNone) = true) :
    g.sourceWritten columns source = [] := by
  unfold sourceWritten
  split
  · rw [rowsWritten_plain plain]
    exact ite_self []
  · rfl

theorem sealInsert_trace {x x' : Insert Nat} (once : Once (originsOf x.visits))
    (run : (g.sealInsert x).Gives d x' d') :
    originsOf x'.visits = expandOrigins g.options.writeSource (g.insertWritten x)
        (originsOf x.visits) ∧
      g.Trace (writing (g.insertWritten x)) d d' := by
  unfold sealInsert at run
  unfold insertWritten
  split at run
  · rename_i bare
    simp only [Seal.gives_bind, Seal.gives_pure] at run
    obtain ⟨assignments, _, first, rfl, rfl⟩ := run
    rw [if_pos bare, Insert.origins_eq x]
    rw [Insert.origins_eq] at once
    obtain ⟨origins, trace⟩ := sealAssignments_trace once.right.left first
    refine ⟨?_, trace⟩
    rw [expandOrigins_within _ once (within_assignmentsWritten _), ← origins, Insert.origins_eq]
    rfl
  · rename_i bare
    rw [if_neg bare]
    split at run
    · rename_i derived
      simp only [Seal.gives_bind, Seal.gives_note, Seal.gives_pure] at run
      obtain ⟨_, _, rfl, rfl, rfl⟩ := run
      rw [if_pos derived, expandOrigins_none]
      exact ⟨rfl, .still rfl (.refl _)⟩
    · rename_i derived
      rw [if_neg derived]
      split at run
      · rename_i plain
        rw [Seal.gives_pure] at run
        obtain ⟨rfl, rfl⟩ := run
        rw [sourceWritten_plain plain, expandOrigins_none]
        exact ⟨rfl, .done d⟩
      · unfold sourceWritten
        split at run
        · rename_i missing
          simp only [Seal.gives_bind, Seal.gives_note, Seal.gives_pure] at run
          obtain ⟨_, _, rfl, rfl, rfl⟩ := run
          simp only [missing, expandOrigins_none]
          exact ⟨trivial, .still rfl (.refl _)⟩
        · rename_i rows found
          simp only [found]
          split at run
          · rename_i narrow
            simp only [Seal.gives_bind, Seal.gives_note, Seal.gives_pure] at run
            obtain ⟨_, _, rfl, rfl, rfl⟩ := run
            simp only [if_pos narrow, expandOrigins_none]
            exact ⟨trivial, .still rfl (.refl _)⟩
          · rename_i wide
            simp only [if_neg wide]
            exact sealInsertRows_trace found wide once run

end Sealing

end SealedColumns
