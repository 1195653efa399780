import SealedColumns.Proofs.Expressions
import SealedColumns.Text.Ascii

/-!
What numbering does to the expressions of a statement. Its anonymous placeholders, and nothing else,
get the ordinals from zero upwards in the order in which both traversals of the tree list them, and
restoring takes the ordinals off again. The ordinals are told by the text that their placeholders
have, as long as no other placeholder of the statement has such a text.
-/
namespace SealedColumns.Sql

variable {ν μ : Type}

def Value.mark? : Value ν → Option (Mark ν)
  | .placeholder mark => some mark
  | _ => none

/-- The placeholders among the expressions of a statement. -/
def Statement.placeholders (o : Traversal) (t : Statement ν) : List (Mark ν) :=
  (valuesAmong (t.expressions o)).filterMap Value.mark?

/-- Only the text of a placeholder with an ordinal starts like this. -/
def ordinalTag : String := "?#"

/-- The text of a placeholder while its statement is sealed. -/
def Mark.text : Mark Nat → String
  | .anonymous => "?"
  | .numbered ordinal => ordinalTag ++ toString ordinal
  | .named text => text

def Mark.isTagged (mark : Mark Nat) : Bool := Text.startsWith ordinalTag mark.text

def Mark.ordinal? : Mark ν → Option ν
  | .numbered ordinal => some ordinal
  | _ => none

/-- An expression and the one in its place once the statement is numbered. An anonymous placeholder
has an ordinal and any other value is the same; all else is the same with the ordinals taken off
the placeholders inside of it. -/
inductive Expr.Numbered : Expr → Expr Nat → Prop where
  | anonymous (ordinal : Nat) : Numbered .anonymous (.value (.placeholder (.numbered ordinal)))
  | value {x : Value} : x ≠ .placeholder .anonymous →
      Numbered (.value x) (.value (x.remark Empty.elim))
  | compound {e : Expr} {e' : Expr Nat} : e.value? = none → e'.restored = e → Numbered e e'

/-- A statement, its numbered form and the number of its ordinals. -/
structure NumberedExactly (o : Traversal) (t : Statement) (t' : Statement Nat) (count : Nat) :
    Prop where
  counted : count = (t.placeholders o).count .anonymous
  uncounted : t'.countAnonymous = 0
  rising : (t'.placeholders o).filter Mark.isTagged = (List.range count).map .numbered
  kept : List.Forall₂ Expr.Numbered (t.expressions o) (t'.expressions o)
  restored : t'.restore = t

section Marks

/-- What a placeholder counts as. -/
def Mark.origin? : Mark ν → Option (Option ν)
  | .anonymous => some none
  | .numbered ordinal => some (some ordinal)
  | .named _ => none

theorem Value.origin?_eq (x : Value ν) : x.origin? = x.mark?.bind Mark.origin? := by
  cases x with
  | placeholder mark => cases mark <;> rfl
  | _ => rfl

/-- In either order the placeholders that count stand as a walk meets them. -/
theorem Statement.origins_eq (o : Traversal) (t : Statement ν) :
    t.origins = (t.placeholders o).filterMap Mark.origin? := by
  rw [Statement.origins, Statement.placeholders, t.values_expressions o, originsOf, valuesMet,
    List.filterMap_filterMap, List.filterMap_filterMap]
  congr 1
  funext visit
  cases visit with
  | value x => exact x.origin?_eq
  | table name => rfl

theorem count_anonymous [DecidableEq ν] (marks : List (Mark ν)) :
    (marks.filterMap Mark.origin?).count none = marks.count .anonymous := by
  induction marks with
  | nil => rfl
  | cons mark marks ih => cases mark <;> simp [Mark.origin?, List.filterMap_cons, ih]

theorem Statement.countAnonymous_eq_count [DecidableEq ν] (o : Traversal) (t : Statement ν) :
    t.countAnonymous = (t.placeholders o).count .anonymous := by
  rw [t.countAnonymous_eq, t.origins_eq o, count_anonymous]

theorem filterMap_ordinal? (marks : List (Mark ν)) :
    marks.filterMap Mark.ordinal? = (marks.filterMap Mark.origin?).filterMap id := by
  rw [List.filterMap_filterMap]
  congr 1
  funext mark
  cases mark <;> rfl

/-- Where nothing else is tagged, what is tagged are the ordinals. -/
theorem filter_isTagged {marks : List (Mark Nat)}
    (untagged : ∀ text, .named text ∈ marks → Text.startsWith ordinalTag text = false) :
    marks.filter Mark.isTagged = (marks.filterMap Mark.ordinal?).map .numbered := by
  induction marks with
  | nil => rfl
  | cons mark marks ih =>
    have rest := ih fun text member => untagged text (List.mem_cons_of_mem _ member)
    cases mark with
    | anonymous => exact (List.filter_cons_of_neg (by decide)).trans rest
    | numbered ordinal =>
      have tagged : Mark.isTagged (.numbered ordinal) = true := by
        simp [Mark.isTagged, Mark.text, Text.startsWith, ordinalTag, Text.dropHead?]
      rw [List.filter_cons_of_pos tagged, rest]
      rfl
    | named text =>
      have other : ¬ Mark.isTagged (.named text) = true := by
        rw [Mark.isTagged, Mark.text, untagged text List.mem_cons_self]
        exact Bool.false_ne_true
      exact (List.filter_cons_of_neg other).trans rest

end Marks

section Kept

theorem Value.numbered (x : Value) (n : Nat) :
    Expr.Numbered (.value x) (.value (numbering.value x n).1) := by
  cases x with
  | placeholder mark =>
    cases mark with
    | anonymous => exact .anonymous n
    | numbered ordinal => cases ordinal
    | named text => exact .value nofun
  | _ => exact .value nofun

theorem Expr.numbered_of_rebuilds {e : Expr} {e' : Expr Nat} (rebuilt : numbering.Rebuilds e e') :
    e.Numbered e' := by
  obtain ⟨n, rfl⟩ := rebuilt
  cases found : e.value? with
  | some x =>
    cases e with
    | value => exact Value.numbered _ n
    | _ => cases found
  | none => exact .compound found (e.walk_walk restoring_undoes_numbering n ())

/-- A placeholder that is neither anonymous nor numbered was there before. -/
theorem Expr.Numbered.named {e : Expr} {e' : Expr Nat} {text : String} (numbered : e.Numbered e')
    (here : e' = .value (.placeholder (.named text))) :
    e = .value (.placeholder (.named text)) := by
  cases numbered with
  | anonymous => cases here
  | @value x other =>
    have same := Expr.value.inj here
    cases x with
    | placeholder mark =>
      cases mark with
      | anonymous => cases same
      | numbered ordinal => cases ordinal
      | named text' =>
        cases same
        rfl
    | _ => cases same
  | compound _ back =>
    subst here
    exact back.symm

theorem mem_placeholders {o : Traversal} {t : Statement ν} {mark : Mark ν} :
    mark ∈ t.placeholders o ↔ .value (.placeholder mark) ∈ t.expressions o := by
  simp only [Statement.placeholders, valuesAmong, List.mem_filterMap]
  constructor
  · rintro ⟨x, ⟨e, listed, isValue⟩, isMark⟩
    cases e with
    | value =>
      cases isValue
      cases x with
      | placeholder => exact Option.some.inj isMark ▸ listed
      | _ => cases isMark
    | _ => cases isValue
  · exact fun listed => ⟨.placeholder mark, ⟨_, listed, rfl⟩, rfl⟩

theorem mem_of_named {es : List Expr} {es' : List (Expr Nat)} {text : String}
    (kept : List.Forall₂ Expr.Numbered es es')
    (member : .value (.placeholder (.named text)) ∈ es') :
    .value (.placeholder (.named text)) ∈ es := by
  induction kept with
  | nil => exact absurd member List.not_mem_nil
  | cons here _ ih =>
    rcases List.mem_cons.mp member with same | later
    · exact here.named same.symm ▸ List.mem_cons_self
    · exact List.mem_cons_of_mem _ (ih later)

end Kept

/-- Exactly the anonymous placeholders of a statement get ordinals. These rise from zero without
gaps, before and behind the other expressions alike, and nothing else changes; without the ordinals
the statement is what it was. -/
theorem numbering_exact (o : Traversal) (t : Statement)
    (untagged : ∀ text, .named text ∈ t.placeholders o →
      Text.startsWith ordinalTag text = false) :
    NumberedExactly o t t.number.1 t.number.2 := by
  have kept : List.Forall₂ Expr.Numbered (t.expressions o) (t.number.1.expressions o) :=
    (t.expressions_walk numbering o 0).imp fun _ _ => Expr.numbered_of_rebuilds
  have untagged' : ∀ text, .named text ∈ t.number.1.placeholders o →
      Text.startsWith ordinalTag text = false := fun text member =>
    untagged text (mem_placeholders.mpr (mem_of_named kept (mem_placeholders.mp member)))
  have ordinals : t.number.1.origins = (List.range t.number.2).map some := by
    rw [t.count_number, t.origins_number]
  refine ⟨?_, ?_, ?_, kept, t.restore_number⟩
  · rw [t.count_number, t.countAnonymous_eq_count o]
  · rw [Statement.countAnonymous_eq, ordinals, List.count_eq_zero]
    simp
  · rw [filter_isTagged untagged', filterMap_ordinal?, ← Statement.origins_eq, ordinals,
      List.filterMap_map]
    exact congrArg _ List.filterMap_some

namespace Sample

/-- `DELETE FROM t WHERE a = ? AND b IN (SELECT c FROM u WHERE d IN ($1, ?))`. -/
def nestedDeletion : Statement :=
  .delete ⟨[], true, [⟨.table [.bare "t"] false [] none, []⟩], [],
    some (.binary (.binary (.column [] (.bare "a")) .equal .anonymous) .and
      (.inQuery false (.column [] (.bare "b"))
        ⟨false, [], .select ⟨.standard, [], [⟨.column [] (.bare "c"), none⟩],
          [⟨.table [.bare "u"] false [] none, []⟩],
          some (.inList false (.column [] (.bare "d"))
            [.value (.placeholder (.named "$1")), .anonymous]), []⟩, []⟩)), []⟩

end Sample

open Sample in
theorem numbering_exact_nested :
    nestedDeletion.placeholders .postorder = [.anonymous, .named "$1", .anonymous] ∧
    (∀ text, .named text ∈ nestedDeletion.placeholders .postorder →
      Text.startsWith ordinalTag text = false) ∧
    NumberedExactly .postorder nestedDeletion nestedDeletion.number.1 2 := by
  have listed : nestedDeletion.placeholders .postorder = [.anonymous, .named "$1", .anonymous] :=
    rfl
  have untagged : ∀ text, .named text ∈ nestedDeletion.placeholders .postorder →
      Text.startsWith ordinalTag text = false := by
    intro text member
    rw [listed] at member
    simp only [List.mem_cons, List.not_mem_nil, or_false, reduceCtorEq, false_or,
      Mark.named.injEq] at member
    rw [member]
    decide
  exact ⟨listed, untagged, numbering_exact .postorder nestedDeletion untagged⟩

end SealedColumns.Sql
