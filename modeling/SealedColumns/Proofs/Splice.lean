import Mathlib.Data.List.Forall2
import SealedColumns.Proofs.Predicate
import SealedColumns.Proofs.Whole

/-!
What sealing makes of what an INSERT or UPDATE writes, as relations that follow its recursion: items
with a slot give way to pairs, and the items without one stay.
-/
namespace SealedColumns

open Sql

/-- The items with a slot give way to a pair, behind the item itself if it is kept. -/
inductive Spliced {α β : Type} (keep : Bool) (pair : β → α → α → α → Prop) :
    List (α × Option β) → List α → Prop where
  | nil : Spliced keep pair [] []
  | kept {item : α} {items : List (α × Option β)} {out : List α} : Spliced keep pair items out →
      Spliced keep pair ((item, none) :: items) (item :: out)
  | pair {slot : β} {item target index : α} {items : List (α × Option β)} {out : List α} :
      pair slot item target index → Spliced keep pair items out →
        Spliced keep pair ((item, some slot) :: items)
          ((if keep then [item] else []) ++ target :: index :: out)

theorem expand_spliced {α β : Type} {keep : Bool} {pair : β → α → α → α → Prop}
    {derive : β → α → Seal (α × α)}
    (derived : ∀ {slot : β} {item target index : α} {d d' : Draft},
      (derive slot item).Gives d (target, index) d' → pair slot item target index)
    {items : List (α × Option β)} {out : List α} {d d' : Draft}
    (run : (expand keep derive items).Gives d out d') : Spliced keep pair items out := by
  induction items generalizing out d with
  | nil =>
    simp only [expand, Seal.gives_pure] at run
    obtain ⟨rfl, rfl⟩ := run
    exact .nil
  | cons x items ih =>
    obtain ⟨item, slot⟩ := x
    cases slot with
    | none =>
      simp only [expand, Seal.gives_bind, Seal.gives_pure] at run
      obtain ⟨rest, _, first, rfl, rfl⟩ := run
      exact .kept (ih first)
    | some slot =>
      simp only [expand, Seal.gives_bind, Seal.gives_pure] at run
      obtain ⟨⟨target, index⟩, _, first, rest, _, second, rfl, rfl⟩ := run
      have spliced : Spliced keep pair _ _ := .pair (derived first) (ih second)
      cases keep <;> exact spliced

/-- Two lists that are spliced at the same slots are spliced side by side. -/
theorem Spliced.zip {α β γ : Type} {keep : Bool} {pair : β → α → α → α → Prop}
    {pair' : β → γ → γ → γ → Prop} {slots : List (Option β)} {items out : List α}
    {items' out' : List γ} (first : Spliced keep pair (items.zip slots) out)
    (second : Spliced keep pair' (items'.zip slots) out') (length : items.length = slots.length)
    (length' : items'.length = slots.length) :
    Spliced keep
      (fun slot (x t i : α × γ) => pair slot x.1 t.1 i.1 ∧ pair' slot x.2 t.2 i.2)
      ((items.zip items').zip slots) (out.zip out') := by
  induction slots generalizing items items' out out' with
  | nil =>
    obtain rfl := List.length_eq_zero_iff.mp length
    obtain rfl := List.length_eq_zero_iff.mp length'
    cases first
    exact .nil
  | cons slot slots ih =>
    obtain ⟨item, items, rfl⟩ := List.exists_cons_of_length_eq_add_one length
    obtain ⟨item', items', rfl⟩ := List.exists_cons_of_length_eq_add_one length'
    simp only [List.length_cons, Nat.add_right_cancel_iff] at length length'
    cases first with
    | kept first =>
      cases second with
      | kept second => exact .kept (ih first second length length')
    | @pair b _ target index _ _ here first =>
      cases second with
      | @pair _ _ target' index' _ _ here' second =>
        have both : pair b (item, item').1 (target, target').1 (index, index').1 ∧
            pair' b (item, item').2 (target, target').2 (index, index').2 := ⟨here, here'⟩
        have spliced : Spliced keep
            (fun slot (x t i : α × γ) => pair slot x.1 t.1 i.1 ∧ pair' slot x.2 t.2 i.2) _ _ :=
          .pair both (ih first second length length')
        cases keep <;> exact spliced

namespace Sealing

section Relations

variable (g : Sealing)

/-- What stands for a value: new placeholders for a placeholder, ciphertext and index for a
literal, and NULL twice for NULL. -/
inductive ValuePair : Expr Nat → Expr Nat → Expr Nat → Prop where
  | placeholder (n : Nat) :
      ValuePair (.value (.placeholder (.numbered n))) .anonymous .anonymous
  | literal {v : Value Nat} {text cipher index : String} {supply : Supply} :
      Operand.ofValue? v = some (.literal text) →
      (g.handler.encrypt text supply).1 = .ok cipher → g.handler.index text = .ok index →
        ValuePair (.value v) (stringLiteral cipher) (stringLiteral index)
  | null : ValuePair (.value .null) (.value .null) (.value .null)

def ColumnPair (c : SensitiveColumn) (ident t i : Ident) : Prop := (t, i) = renamedPair c ident

structure AssignmentPair (c : SensitiveColumn) (a t i : Assignment Nat) : Prop where
  target : t.target = a.target.rename c.target
  index : i.target = a.target.rename c.index
  value : g.ValuePair a.value t.value i.value

/-- Assignments to a derived column keep all of them from being sealed. -/
inductive AssignmentsSealed : List (Assignment Nat) → List (Assignment Nat) → Prop where
  | derived {as : List (Assignment Nat)} : as.any g.isDerivedTarget = true → AssignmentsSealed as as
  | spliced {as as' : List (Assignment Nat)} : as.any g.isDerivedTarget = false →
      Spliced g.options.writeSource g.AssignmentPair (as.zip (as.map g.assignmentSlot?)) as' →
        AssignmentsSealed as as'

def RowSealed (slots : List (Option SensitiveColumn)) (row row' : List (Expr Nat)) : Prop :=
  Spliced g.options.writeSource (fun _ => g.ValuePair) (row.zip slots) row'

/-- What keeps an INSERT with a column list from being sealed. -/
inductive Unsealed (x : Insert Nat) : Prop where
  | derived : x.columns.any g.active.isDerived = true → Unsealed x
  | plain : (∀ ident ∈ x.columns, g.active.get? ident = none) → Unsealed x
  | source : rowsOf? x.source = none → Unsealed x
  | width {rows : List (List (Expr Nat))} : rowsOf? x.source = some rows →
      (∃ row ∈ rows, row.length ≠ x.columns.length) → Unsealed x

inductive InsertSealed (x : Insert Nat) : Insert Nat → Prop where
  | assignments {as : List (Assignment Nat)} : x.columns = [] →
      g.AssignmentsSealed x.assignments as → InsertSealed x { x with assignments := as }
  | kept : x.columns ≠ [] → g.Unsealed x → InsertSealed x x
  | rows {rows rows' : List (List (Expr Nat))} : x.columns ≠ [] →
      x.columns.any g.active.isDerived = false → rowsOf? x.source = some rows →
      (∀ row ∈ rows, row.length = x.columns.length) →
      List.Forall₂ (g.RowSealed (g.columnSlots x.columns rows)) rows rows' →
        InsertSealed x { x with
          columns := g.expandColumns x.columns (g.columnSlots x.columns rows)
          source := withRows rows' x.source }

end Relations

variable {g : Sealing} {d d' : Draft}

theorem sealValue_pair {e target index : Expr Nat}
    (run : (g.sealValue e).Gives d (target, index) d') : g.ValuePair e target index := by
  unfold sealValue at run
  split at run
  · rename_i operand known
    obtain ⟨v, rfl, known⟩ := Operand.ofExpr?_eq_some.mp known
    cases operand with
    | placeholder n =>
      simp only [sealOperand, Seal.gives_bind, Seal.gives_pure, Prod.mk.injEq] at run
      obtain ⟨_, _, _, _, _, _, _, _, _, _, _, _, ⟨rfl, rfl⟩, rfl⟩ := run
      rw [Operand.ofValue?_placeholder.mp known]
      exact .placeholder n
    | literal text =>
      simp only [sealOperand, sealText, Seal.gives_bind, Seal.gives_pure, gives_encrypt,
        gives_index, Prod.mk.injEq] at run
      obtain ⟨_, _, ⟨_, _, ⟨cipher, rfl⟩, _, _, ⟨index, rfl⟩, rfl, rfl⟩, ⟨rfl, rfl⟩, rfl⟩ := run
      exact .literal known cipher index
    | null =>
      simp only [sealOperand, Seal.gives_pure, Prod.mk.injEq] at run
      obtain ⟨⟨rfl, rfl⟩, rfl⟩ := run
      rw [Operand.ofValue?_null.mp known]
      exact .null
  · exact absurd run (Seal.gives_fail _ _ _ _)

theorem sealAssignment_pair {c : SensitiveColumn} {a target index : Assignment Nat}
    (run : (g.sealAssignment c a).Gives d (target, index) d') :
    g.AssignmentPair c a target index := by
  simp only [sealAssignment, Seal.gives_bind, Seal.gives_pure, Prod.mk.injEq] at run
  obtain ⟨⟨t, i⟩, _, first, ⟨rfl, rfl⟩, rfl⟩ := run
  exact ⟨rfl, rfl, sealValue_pair first⟩

theorem sealAssignments_sealed {as as' : List (Assignment Nat)}
    (run : (g.sealAssignments as).Gives d as' d') : g.AssignmentsSealed as as' := by
  unfold sealAssignments at run
  split at run
  · rename_i derived
    simp only [Seal.gives_bind, Seal.gives_note, Seal.gives_pure] at run
    obtain ⟨_, _, _, rfl, _⟩ := run
    exact .derived derived
  · rename_i plain
    simp only [Seal.gives_bind] at run
    obtain ⟨slots, _, first, second⟩ := run
    obtain ⟨rfl, -⟩ := mapM_still assignmentSlot_choice first
    exact .spliced (Bool.not_eq_true _ ▸ plain) (expand_spliced sealAssignment_pair second)

theorem sealRows_sealed {slots : List (Option SensitiveColumn)}
    {rows rows' : List (List (Expr Nat))}
    (run : (rows.mapM (g.sealRow slots)).Gives d rows' d') :
    List.Forall₂ (g.RowSealed slots) rows rows' :=
  (Seal.gives_mapM run).imp fun _ _ ⟨_, _, here⟩ => expand_spliced sealValue_pair here

theorem sealInsert_sealed {x x' : Insert Nat} (run : (g.sealInsert x).Gives d x' d') :
    g.InsertSealed x x' := by
  unfold sealInsert at run
  split at run
  · rename_i bare
    simp only [Seal.gives_bind, Seal.gives_pure] at run
    obtain ⟨as, _, first, rfl, rfl⟩ := run
    exact .assignments (List.isEmpty_iff.mp bare) (sealAssignments_sealed first)
  · rename_i listed
    have columns : x.columns ≠ [] := fun empty => listed (List.isEmpty_iff.mpr empty)
    split at run
    · rename_i derived
      simp only [Seal.gives_bind, Seal.gives_note, Seal.gives_pure] at run
      obtain ⟨_, _, _, rfl, _⟩ := run
      exact .kept columns (.derived derived)
    · rename_i derived
      split at run
      · rename_i plain
        rw [Seal.gives_pure] at run
        obtain ⟨rfl, rfl⟩ := run
        refine .kept columns (.plain fun ident member => ?_)
        exact Option.isNone_iff_eq_none.mp (List.all_eq_true.mp plain ident member)
      · split at run
        · rename_i missing
          simp only [Seal.gives_bind, Seal.gives_note, Seal.gives_pure] at run
          obtain ⟨_, _, _, rfl, _⟩ := run
          exact .kept columns (.source missing)
        · rename_i rows found
          split at run
          · rename_i narrow
            simp only [Seal.gives_bind, Seal.gives_note, Seal.gives_pure] at run
            obtain ⟨_, _, _, rfl, _⟩ := run
            refine .kept columns (.width found ?_)
            simpa only [List.any_eq_true, bne_iff_ne] using narrow
          · rename_i wide
            simp only [sealInsertRows, Seal.gives_bind, Seal.gives_pure] at run
            obtain ⟨slots, _, first, rows', _, second, rfl, rfl⟩ := run
            obtain ⟨rfl, -⟩ := mapM_still (fun chosen => columnSlot_choice chosen) first
            simp only [List.any_eq_true, bne_iff_ne, not_exists, not_and,
              Decidable.not_not] at wide
            exact .rows columns (Bool.not_eq_true _ ▸ derived) found wide (sealRows_sealed second)

/-- The column list gives way as the rows do. -/
theorem expandColumns_spliced (columns : List Ident) (slots : List (Option SensitiveColumn)) :
    Spliced g.options.writeSource ColumnPair (columns.zip slots)
      (g.expandColumns columns slots) := by
  unfold expandColumns
  induction columns.zip slots with
  | nil => exact .nil
  | cons x items ih =>
    obtain ⟨ident, slot⟩ := x
    cases slot with
    | none => exact .kept ih
    | some c =>
      have here : ColumnPair c ident (renamedPair c ident).1 (renamedPair c ident).2 := rfl
      have spliced : Spliced g.options.writeSource ColumnPair _ _ := .pair here ih
      simp only [expand]
      cases keep : g.options.writeSource <;> rw [keep] at spliced <;> exact spliced

end Sealing

end SealedColumns
