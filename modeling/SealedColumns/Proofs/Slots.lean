import SealedColumns.Parameters

/-!
What the operations on parameters do to the slots around the one that an ordinal designates: they
replace that slot and leave everything before and behind it.
-/
namespace SealedColumns.Parameters

/-- The slots around the first one of an ordinal. -/
structure Splits (p : Parameters) (n : Nat) (before : List Slot) (slot : Slot)
    (behind : List Slot) : Prop where
  slots : p.slots = before ++ slot :: behind
  origin : slot.origin = some n
  first : ∀ s ∈ before, s.origin ≠ some n

variable {p : Parameters} {n : Nat} {before behind : List Slot} {slot : Slot}

theorem designates_origin (n : Nat) (s : Slot) :
    Anchor.designates (.origin n) s = true ↔ s.origin = some n := by
  simp [Anchor.designates]

theorem exists_splits (found : some n ∈ p.origins) :
    ∃ before slot behind, p.Splits n before slot behind := by
  obtain ⟨s, member, origin⟩ := List.mem_map.mp found
  have some : (p.slots.find? (Anchor.designates (.origin n))).isSome := by
    rw [List.find?_isSome]
    exact ⟨s, member, (designates_origin n s).mpr origin⟩
  obtain ⟨slot, h⟩ := Option.isSome_iff_exists.mp some
  obtain ⟨here, before, behind, split, first⟩ := List.find?_eq_some_iff_append.mp h
  refine ⟨before, slot, behind, split, (designates_origin n slot).mp here, ?_⟩
  intro t member same
  have := first t member
  rw [(designates_origin n t).mpr same] at this
  contradiction

theorem position?_absent (absent : some n ∉ p.origins) : p.position? (.origin n) = none := by
  unfold position?
  rw [List.findIdx?_eq_none_iff]
  intro s member
  rw [Bool.eq_false_iff]
  intro here
  exact absent (List.mem_map.mpr ⟨s, member, (designates_origin n s).mp here⟩)

namespace Splits

theorem position? (split : p.Splits n before slot behind) :
    p.position? (.origin n) = some before.length := by
  have missed : before.findIdx? (Anchor.designates (.origin n)) = none := by
    rw [List.findIdx?_eq_none_iff]
    intro s member
    rw [Bool.eq_false_iff]
    exact fun here => split.first s member ((designates_origin n s).mp here)
  have here := (designates_origin n slot).mpr split.origin
  simp [Parameters.position?, split.slots, List.findIdx?_append, missed, List.findIdx?_cons, here]

theorem insertIdx_behind (split : p.Splits n before slot behind) (x : Slot) {offset : Nat}
    (near : offset ≤ behind.length) :
    p.slots.insertIdx (min (before.length + offset + 1) p.slots.length) x =
      before ++ slot :: behind.insertIdx offset x := by
  have place : min (before.length + offset + 1) p.slots.length = before.length + (offset + 1) := by
    rw [split.slots, List.length_append, List.length_cons]
    omega
  rw [place, split.slots]
  clear split place
  induction before with
  | nil => simp
  | cons s before ih => simp [Nat.succ_add, ih]

theorem addAfter? (split : p.Splits n before slot behind) (property : String) (value : Json)
    {offset : Nat} (near : offset ≤ behind.length) :
    p.addAfter? property value (.origin n) offset =
      some { p with
        slots := before ++ slot :: behind.insertIdx offset ⟨.text property, none⟩
        additional := p.additional.insert property value } := by
  simp only [Parameters.addAfter?, split.position?, Option.bind_eq_bind, Option.bind_some,
    split.insertIdx_behind _ near]

theorem modify_here (split : p.Splits n before slot behind) (f : Slot → Slot) :
    p.slots.modify before.length f = before ++ f slot :: behind := by
  rw [split.slots]
  clear split
  induction before with
  | nil => rfl
  | cons s before ih => exact congrArg _ ih

theorem replace? (split : p.Splits n before slot behind) (property : String) (value : Json) :
    p.replace? property (some value) (.origin n) =
      some { p with
        slots := before ++ ⟨.text property, some n⟩ :: behind
        additional := p.additional.insert property value } := by
  simp only [Parameters.replace?, split.position?, Option.bind_eq_bind, Option.bind_some,
    split.modify_here, split.origin]

theorem around (split : p.Splits n before slot behind) (others : List Slot)
    (additional : Members Json) :
    ({ p with slots := before ++ slot :: others, additional := additional } : Parameters).Splits n
      before slot others :=
  ⟨rfl, split.origin, split.first⟩

theorem remove? (split : p.Splits n before slot behind) :
    p.remove? (.origin n) = some (slot.mapping, { p with slots := before ++ behind }) := by
  simp [Parameters.remove?, split.position?, split.slots, List.eraseIdx_append_of_length_le]

end Splits

end SealedColumns.Parameters
