import SealedColumns.Proofs.Outline
import SealedColumns.Proofs.Plaintext

/-!
A pass over a settled statement: every name that it looks up is a derived column or none of the
sensitive ones, and no write can be sealed. Such a pass leaves the tree, asks the handler for
nothing and records no alias; at most it adds to the log.
-/
namespace SealedColumns

namespace Seal

variable {α β : Type}

/-- From every draft the run has this result, and nothing changes but the log. -/
def Idles (m : Seal α) (a : α) : Prop := ∀ d, ∃ log, m.Gives d a { d with log := log }

theorem Idles.pure (a : α) : (pure a : Seal α).Idles a := fun d =>
  ⟨d.log, (gives_pure a a d d).mpr ⟨rfl, rfl⟩⟩

theorem Idles.note (event : Event) : (note event).Idles () := fun d =>
  ⟨d.log ++ [event], (gives_note event d _ ()).mpr rfl⟩

theorem Idles.bind {m : Seal α} {f : α → Seal β} {a : α} {b : β} (first : m.Idles a)
    (second : (f a).Idles b) : (m >>= f).Idles b := by
  intro d
  obtain ⟨log, here⟩ := first d
  obtain ⟨log', later⟩ := second { d with log := log }
  exact ⟨log', (gives_bind m f d _ b).mpr ⟨a, _, here, later⟩⟩

theorem Idles.mapM {f : α → Seal β} {g : α → β} {xs : List α}
    (each : ∀ x ∈ xs, (f x).Idles (g x)) : (xs.mapM f).Idles (xs.map g) := by
  induction xs with
  | nil => exact .pure []
  | cons x xs ih =>
    rw [List.mapM_cons, List.map_cons]
    have rest := ih fun y later => each y (List.mem_cons_of_mem _ later)
    exact (each x List.mem_cons_self).bind (rest.bind (.pure _))

end Seal

open Sql

section Splicing

variable {α β : Type} {keep : Bool}

/-- Where no item has a slot, nothing is expanded. -/
theorem expand_idles {derive : β → α → Seal (α × α)} {items : List α} {slots : List (Option β)}
    (empty : ∀ slot ∈ slots, slot = none) (wide : items.length ≤ slots.length) :
    (expand keep derive (items.zip slots)).Idles items := by
  induction items generalizing slots with
  | nil => exact .pure []
  | cons item items ih =>
    cases slots with
    | nil => cases wide
    | cons slot slots =>
      obtain rfl : slot = none := empty slot List.mem_cons_self
      have rest := ih (fun slot later => empty slot (List.mem_cons_of_mem _ later))
        (Nat.le_of_succ_le_succ wide)
      exact rest.bind (.pure _)

theorem Spliced.eq_of_empty {pair : β → α → α → α → Prop} {items out : List α}
    {slots : List (Option β)} (spliced : Spliced keep pair (items.zip slots) out)
    (empty : ∀ slot ∈ slots, slot = none) (wide : items.length ≤ slots.length) : out = items := by
  induction items generalizing slots out with
  | nil =>
    cases spliced
    rfl
  | cons item items ih =>
    cases slots with
    | nil => cases wide
    | cons slot slots =>
      obtain rfl : slot = none := empty slot List.mem_cons_self
      cases spliced with
      | kept rest =>
        rw [ih rest (fun slot later => empty slot (List.mem_cons_of_mem _ later))
          (Nat.le_of_succ_le_succ wide)]

end Splicing

namespace Sealing

variable (g : Sealing)

def IdleSubject : Subject → Prop
  | .projected scope name => g.projected? scope (.column [] name) = none
  | .filtered scope name => g.sensitive? scope (.column [] name) = none

def SubjectsIdle (subjects : List Subject) : Prop :=
  g.options.overwrite = true → ∀ subject ∈ subjects, g.IdleSubject subject

def AssignmentsIdle (as : List (Option Ident × Bool)) : Prop :=
  (∃ a ∈ as, a.1.any g.active.isDerived = true) ∨
    ∀ a ∈ as, a.1.bind g.active.get? = none ∨ a.2 = false

/-- No column has a value in every row that sealing understands. -/
def RowsIdle (columns : List Ident) (rows : List (List Bool)) : Prop :=
  ∀ x ∈ columns.zipIdx, g.active.get? x.1 = none ∨ ∃ row ∈ rows, row[x.2]? ≠ some true

def InsertIdle (columns : List Ident) (rows : Option (List (List Bool)))
    (assignments : List (Option Ident × Bool)) : Prop :=
  if columns = [] then g.AssignmentsIdle assignments
  else (∃ ident ∈ columns, g.active.isDerived ident = true) ∨
    ∀ profile ∈ rows, (∀ row ∈ profile, row.length = columns.length) → g.RowsIdle columns profile

def Settled : Outline → Prop
  | .insert columns rows assignments => g.InsertIdle columns rows assignments
  | .update assignments subjects => g.AssignmentsIdle assignments ∧ g.SubjectsIdle subjects
  | .delete subjects => g.SubjectsIdle subjects
  | .query subjects => g.SubjectsIdle subjects
  | .passed => True

variable {g}

theorem SubjectsIdle.nil : g.SubjectsIdle [] := fun _ _ member => absurd member List.not_mem_nil

theorem SubjectsIdle.left {xs ys : List Subject} (idle : g.SubjectsIdle (xs ++ ys)) :
    g.SubjectsIdle xs := fun overwrite subject member =>
  idle overwrite subject (List.mem_append_left _ member)

theorem SubjectsIdle.right {xs ys : List Subject} (idle : g.SubjectsIdle (xs ++ ys)) :
    g.SubjectsIdle ys := fun overwrite subject member =>
  idle overwrite subject (List.mem_append_right _ member)

theorem SubjectsIdle.append {xs ys : List Subject} (first : g.SubjectsIdle xs)
    (second : g.SubjectsIdle ys) : g.SubjectsIdle (xs ++ ys) := by
  intro overwrite subject member
  rcases List.mem_append.mp member with left | right
  · exact first overwrite subject left
  · exact second overwrite subject right

/-- Qualifiers do not count. -/
theorem sensitive?_column (scope : List String) (qualifier : List Ident) (name : Ident) :
    g.sensitive? scope (.column qualifier name) = g.sensitive? scope (.column [] name) := rfl

section Predicates

variable {scope : List String}

theorem isSensitive_of_reached {e : Expr Nat}
    (idle : ∀ name ∈ e.reached, g.sensitive? scope (.column [] name) = none) :
    g.isSensitive scope e = false := by
  unfold isSensitive
  cases e with
  | column qualifier name =>
    rw [sensitive?_column, idle name List.mem_cons_self]
    rfl
  | _ => rfl

theorem indexOperandIf_idles (e : Expr Nat) :
    (g.indexOperandIf false e).Idles ⟨e, rfl⟩ := .pure _

mutual

theorem sealPredicate_idles (scope : List String) : ∀ (e : Expr Nat),
    (∀ name ∈ e.reached, g.sensitive? scope (.column [] name) = none) →
      (g.sealPredicate scope e).Idles e
  | .nested e, idle | .unary _ e, idle | .isNull _ e, idle | .inQuery _ e _, idle
  | .argument _ _ e, idle => by
    unfold sealPredicate
    exact (sealPredicate_idles scope e idle).bind (.pure _)
  | .binary l op r, idle => by
    have left : ∀ name ∈ l.reached, g.sensitive? scope (.column [] name) = none :=
      fun name member => idle name (List.mem_append_left _ member)
    have right : ∀ name ∈ r.reached, g.sensitive? scope (.column [] name) = none :=
      fun name member => idle name (List.mem_append_right _ member)
    unfold sealPredicate
    simp only [isSensitive_of_reached left, isSensitive_of_reached right, Bool.false_and]
    refine (indexOperandIf_idles r).bind ((indexOperandIf_idles l).bind ?_)
    exact (sealPredicate_idles scope l left).bind
      ((sealPredicate_idles scope r right).bind (.pure _))
  | .pattern _ _ e p _, idle => by
    have subject : ∀ name ∈ e.reached, g.sensitive? scope (.column [] name) = none := idle
    unfold sealPredicate
    simp only [isSensitive_of_reached subject]
    exact (indexOperandIf_idles p).bind ((sealPredicate_idles scope e subject).bind (.pure _))
  | .inList _ e items, idle => by
    have subject : ∀ name ∈ e.reached, g.sensitive? scope (.column [] name) = none := idle
    unfold sealPredicate
    simp only [isSensitive_of_reached subject, Bool.false_eq_true, if_false]
    exact (Seal.Idles.pure items).bind ((sealPredicate_idles scope e subject).bind (.pure _))
  | .call _ _ args _ _, idle => by
    unfold sealPredicate
    exact (sealArguments_idles scope args idle).bind (.pure _)
  | .column qualifier name, idle => by
    have plain : g.sensitive? scope (.column qualifier name) = none :=
      idle name List.mem_cons_self
    unfold sealPredicate
    simp only [readIndex, plain]
    exact .pure _
  | .value _, _ | .star _, _ | .existence _ _, _ | .subquery _, _ | .framed _ _, _ => by
    unfold sealPredicate
    exact .pure _

theorem sealArguments_idles (scope : List String) : ∀ (es : List (Expr Nat)),
    (∀ name ∈ reachedAll es, g.sensitive? scope (.column [] name) = none) →
      (g.sealArguments scope es).Idles es
  | [], _ => by
    unfold sealArguments
    exact .pure _
  | e :: es, idle => by
    have head := sealPredicate_idles scope e fun name member =>
      idle name (List.mem_append_left _ member)
    have tail := sealArguments_idles scope es fun name member =>
      idle name (List.mem_append_right _ member)
    unfold sealArguments
    exact head.bind (tail.bind (.pure _))

end

theorem sealFilter_idles {filter : Option (Expr Nat)}
    (idle : g.SubjectsIdle (filterSubjects scope filter)) :
    (g.sealFilter scope filter).Idles filter := by
  cases filter with
  | none => exact .pure _
  | some e =>
    cases overwrite : g.options.overwrite with
    | false =>
      simp only [sealFilter, overwrite, Bool.false_eq_true, if_false]
      exact .pure _
    | true =>
      simp only [sealFilter, overwrite, if_true]
      refine (sealPredicate_idles scope e fun name reached => ?_).bind (.pure _)
      refine idle overwrite (.filtered scope name) ?_
      rw [filterSubjects, Option.toList_some, List.flatMap_singleton]
      exact List.mem_map_of_mem reached

end Predicates

section Queries

theorem sealItem_idles {scope : List String} {item : SelectItem Nat}
    (unprojected : g.projected? scope item.expr = none) :
    (g.sealItem scope item).Idles item := by
  unfold sealItem
  rw [unprojected]
  exact .pure item

theorem sealProjection_idles {scope : List String} {items : List (SelectItem Nat)}
    (idle : g.SubjectsIdle (itemSubjects scope items)) :
    (g.sealProjection scope items).Idles items := by
  unfold sealProjection
  split
  · rename_i active
    have overwrite : g.options.overwrite = true := (Bool.and_eq_true_iff.mp active).1
    have run : (items.mapM (g.sealItem scope)).Idles (items.map id) := by
      refine Seal.Idles.mapM fun item member => sealItem_idles ?_
      obtain ⟨e, label⟩ := item
      cases e with
      | column qualifier name =>
        refine idle overwrite (.projected scope name) (List.mem_flatMap.mpr ⟨_, member, ?_⟩)
        exact List.mem_singleton.mpr rfl
      | _ => rfl
    rwa [List.map_id] at run
  · exact .pure items

mutual

theorem sealQuery_idles : ∀ (q : Query Nat), g.SubjectsIdle q.subjects → (g.sealQuery q).Idles q
  | ⟨_, ctes, body, _⟩, idle =>
    (sealCtes_idles ctes idle.left).bind ((sealBody_idles body idle.right).bind (.pure _))

theorem sealCtes_idles : ∀ (ctes : List (Cte Nat)), g.SubjectsIdle (ctesSubjects ctes) →
    (g.sealCtes ctes).Idles ctes
  | [], _ => .pure _
  | ⟨_, _, _, query⟩ :: ctes, idle =>
    (sealQuery_idles query idle.left).bind ((sealCtes_idles ctes idle.right).bind (.pure _))

theorem sealBody_idles : ∀ (body : SetExpr Nat), g.SubjectsIdle body.subjects →
    (g.sealBody body).Idles body
  | .select s, idle => (sealSelect_idles s idle).bind (.pure _)
  | .query q, idle => (sealQuery_idles q idle).bind (.pure _)
  | .operation _ _ l r, idle =>
    (sealBody_idles l idle.left).bind ((sealBody_idles r idle.right).bind (.pure _))
  | .values _ _, _ | .insert _, _ | .update _, _ | .delete _, _ => .pure _

theorem sealSelect_idles : ∀ (s : Select Nat), g.SubjectsIdle s.subjects →
    (g.sealSelect s).Idles s
  | ⟨_, _, _, sources, _, _⟩, idle =>
    (sealProjection_idles idle.left.left).bind
      ((sealSources_idles sources idle.left.right).bind
        ((sealFilter_idles idle.right).bind (.pure _)))

theorem sealSources_idles : ∀ (items : List (FromItem Nat)),
    g.SubjectsIdle (sourcesSubjects items) → (g.sealSources items).Idles items
  | [], _ => .pure _
  | item :: items, idle =>
    (sealSource_idles item idle.left).bind ((sealSources_idles items idle.right).bind (.pure _))

theorem sealSource_idles : ∀ (item : FromItem Nat), g.SubjectsIdle item.subjects →
    (g.sealSource item).Idles item
  | ⟨relation, joins⟩, idle =>
    (sealFactor_idles relation idle.left).bind ((sealJoins_idles joins idle.right).bind (.pure _))

theorem sealJoins_idles : ∀ (joins : List (Join Nat)), g.SubjectsIdle (joinsSubjects joins) →
    (g.sealJoins joins).Idles joins
  | [], _ => .pure _
  | ⟨_, _, relation, _, _⟩ :: joins, idle =>
    (sealFactor_idles relation idle.left).bind ((sealJoins_idles joins idle.right).bind (.pure _))

theorem sealFactor_idles : ∀ (factor : TableFactor Nat), g.SubjectsIdle factor.subjects →
    (g.sealFactor factor).Idles factor
  | .table _ _ _ _, _ => .pure _
  | .derived _ query _, idle => (sealQuery_idles query idle).bind (.pure _)
  | .nested item _, idle => (sealSource_idles item idle).bind (.pure _)

end

end Queries

section Writes

theorem isSealable_of_ofExpr? {e : Expr Nat} (understood : (Operand.ofExpr? e).isSome = true) :
    e.isSealable = true := by
  obtain ⟨operand, known⟩ := Option.isSome_iff_exists.mp understood
  obtain ⟨v, rfl, known⟩ := Operand.ofExpr?_eq_some.mp known
  cases v with
  | placeholder mark =>
    cases mark with
    | anonymous => rfl
    | numbered n => rfl
    | named text => cases known
  | number text long => rfl
  | string text => rfl
  | null => rfl
  | _ => cases known

/-- A slot that is not filled costs a note at most. -/
theorem slot_idles (column? : Option SensitiveColumn) (supported : Bool) (event : Event) :
    Seal.Idles (match column? with
      | none => pure none
      | some column => if supported then pure (some column) else do
        Seal.note event
        return none) (column?.filter fun _ => supported) := by
  cases column? with
  | none => exact .pure none
  | some column =>
    cases supported with
    | true => exact .pure (some column)
    | false => exact (Seal.Idles.note event).bind (.pure none)

theorem slot_idles_empty {column? : Option SensitiveColumn} {supported : Bool} {event : Event}
    (empty : column? = none ∨ supported = false) :
    Seal.Idles (match column? with
      | none => pure none
      | some column => if supported then pure (some column) else do
        Seal.note event
        return none) none := by
  have none : (column?.filter fun _ => supported) = none := by
    rcases empty with rfl | rfl <;> simp
  exact none ▸ slot_idles column? supported event

/-- The slots of a column list, where values that are not understood leave theirs empty. -/
theorem columnSlots_idles (columns : List Ident) (rows : List (List (Expr Nat))) :
    (columns.zipIdx.mapM fun (ident, position) => g.columnSlot rows position ident).Idles
      (g.columnSlots columns rows) :=
  Seal.Idles.mapM fun _ _ => slot_idles _ _ _

theorem assignmentSlots_idles (as : List (Assignment Nat)) :
    (as.mapM g.assignmentSlot).Idles (as.map g.assignmentSlot?) :=
  Seal.Idles.mapM fun _ _ => slot_idles _ _ _

theorem sealAssignments_idles {as : List (Assignment Nat)}
    (idle : g.AssignmentsIdle (assignmentsProfile as)) : (g.sealAssignments as).Idles as := by
  unfold sealAssignments
  split
  · exact (Seal.Idles.note .assignmentsDerived).bind (.pure as)
  · rename_i underived
    have empty : ∀ a ∈ as, g.active.get? =<< a.target.column? = none ∨
        a.value.isSealable = false := by
      rcases idle with ⟨a, member, derived⟩ | idle
      · obtain ⟨b, listed, rfl⟩ := List.mem_map.mp member
        refine absurd (List.any_eq_true.mpr ⟨b, listed, ?_⟩) underived
        rw [isDerivedTarget_eq]
        exact derived
      · exact fun a member => idle _ (List.mem_map_of_mem member)
    have slots : (as.mapM g.assignmentSlot).Idles (as.map fun _ => none) := by
      refine Seal.Idles.mapM fun a member => slot_idles_empty ?_
      rw [assigned?_eq]
      refine (empty a member).imp id fun unsealable => ?_
      rw [← Bool.not_eq_true] at unsealable ⊢
      exact fun understood => unsealable (isSealable_of_ofExpr? understood)
    refine slots.bind (expand_idles (fun slot member => ?_) (Nat.le_of_eq (by simp)))
    obtain ⟨_, -, none⟩ := List.mem_map.mp member
    exact none.symm

theorem profile?_eq (source : Option (Query Nat)) :
    source.bind Query.profile? = (rowsOf? source).map rowsProfile := by
  unfold rowsOf?
  split
  · rfl
  · rename_i other
    cases source with
    | none => rfl
    | some q =>
      obtain ⟨recursive, ctes, body, clauses⟩ := q
      cases body with
      | values rowWord rows => exact absurd rfl (other _ _ _ _ _)
      | _ => rfl

theorem withRows_self {source : Option (Query Nat)} {rows : List (List (Expr Nat))}
    (found : rowsOf? source = some rows) : withRows rows source = source := by
  unfold rowsOf? at found
  split at found
  · cases found
    rfl
  · cases found

theorem isSupportedAt_of_idle {rows : List (List (Expr Nat))} {position : Nat}
    (idle : ∃ row ∈ rowsProfile rows, row[position]? ≠ some true) :
    isSupportedAt rows position = false := by
  obtain ⟨profile, member, unsealable⟩ := idle
  obtain ⟨row, listed, rfl⟩ := List.mem_map.mp member
  rw [← Bool.not_eq_true]
  intro supported
  have understood := List.all_eq_true.mp supported row listed
  cases placed : row[position]? with
  | none => simp [placed] at understood
  | some e =>
    rw [placed, Option.bind_some] at understood
    rw [List.getElem?_map, placed, Option.map_some, isSealable_of_ofExpr? understood] at unsealable
    exact unsealable rfl

theorem sealInsertRows_idles {x : Insert Nat} {rows : List (List (Expr Nat))}
    (found : rowsOf? x.source = some rows) (wide : ∀ row ∈ rows, row.length = x.columns.length)
    (idle : g.RowsIdle x.columns (rowsProfile rows)) : (g.sealInsertRows x rows).Idles x := by
  have slots : (x.columns.zipIdx.mapM fun (ident, position) =>
      g.columnSlot rows position ident).Idles (x.columns.zipIdx.map fun _ => none) := by
    refine Seal.Idles.mapM fun place member => slot_idles_empty ?_
    exact (idle place member).imp id isSupportedAt_of_idle
  have empty : ∀ slot ∈ x.columns.zipIdx.map fun _ => (none : Option SensitiveColumn),
      slot = none := by
    intro slot member
    obtain ⟨_, -, none⟩ := List.mem_map.mp member
    exact none.symm
  have run : (rows.mapM (g.sealRow (x.columns.zipIdx.map fun _ => none))).Idles (rows.map id) := by
    refine Seal.Idles.mapM fun row member => expand_idles empty ?_
    rw [wide row member, List.length_map, List.length_zipIdx]
  rw [List.map_id] at run
  have columns : g.expandColumns x.columns (x.columns.zipIdx.map fun _ => none) = x.columns := by
    exact (expandColumns_spliced x.columns _).eq_of_empty empty (Nat.le_of_eq (by simp))
  refine slots.bind (run.bind ?_)
  rw [columns, withRows_self found]
  cases x
  exact .pure _

theorem sealInsert_idles {x : Insert Nat}
    (idle : g.InsertIdle x.columns (x.source.bind Query.profile?)
      (assignmentsProfile x.assignments)) : (g.sealInsert x).Idles x := by
  unfold InsertIdle at idle
  unfold sealInsert
  split at idle
  · rename_i bare
    rw [if_pos (List.isEmpty_iff.mpr bare)]
    cases x
    exact (sealAssignments_idles idle).bind (.pure _)
  · rename_i listed
    rw [if_neg (listed ∘ List.isEmpty_iff.mp)]
    split
    · exact (Seal.Idles.note .insertDerived).bind (.pure x)
    · rename_i underived
      have idle := idle.resolve_left fun derived => underived (List.any_eq_true.mpr derived)
      split
      · exact .pure x
      · split
        · exact (Seal.Idles.note .insertSource).bind (.pure x)
        · rename_i rows found
          split
          · exact (Seal.Idles.note .insertWidth).bind (.pure x)
          · rename_i wide
            simp only [List.any_eq_true, bne_iff_ne, not_exists, not_and,
              Decidable.not_not] at wide
            rw [profile?_eq, found] at idle
            refine sealInsertRows_idles found wide (idle _ rfl ?_)
            intro profile member
            obtain ⟨row, listed, rfl⟩ := List.mem_map.mp member
            rw [List.length_map]
            exact wide row listed

end Writes

theorem sealTree_idles {t : Statement Nat} (settled : g.Settled t.outline) :
    (g.sealTree t).Idles t := by
  cases t with
  | insert x => exact (sealInsert_idles settled).bind (.pure _)
  | update x =>
    cases x
    exact (sealAssignments_idles settled.1).bind ((sealFilter_idles settled.2).bind (.pure _))
  | delete x =>
    cases x
    exact (sealFilter_idles settled).bind (.pure _)
  | query q => exact (sealQuery_idles q settled).bind (.pure _)
  | explain words t => exact (Seal.Idles.note .statementPassed).bind (.pure _)
  | other tables frame operands q => exact (Seal.Idles.note .statementPassed).bind (.pure _)

end Sealing

end SealedColumns
