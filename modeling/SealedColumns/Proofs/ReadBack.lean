import SealedColumns.Proofs.Cells
import SealedColumns.Proofs.Edits
import SealedColumns.Proofs.Reading

/-!
What a mapping reads after a value was written for it. A write looks for the value in the order of
a read, so that the next read finds it there, with two exceptions. A new parameter under a path is
stored under the whole path but looked up under its root; and a structured value that takes the
place of a scalar parameter object is no longer read as a whole, but along the path.
-/
namespace SealedColumns

/-- The property that an edit makes a new parameter of, and its value. -/
def Edit.created? : Edit → Option (String × Json)
  | .add property value => some (property, value)
  | .addAfter property value _ _ => some (property, value)
  | .replace property value _ => value.map fun value => (property, value)
  | .remove _ => none
  | .setValue _ _ => none

namespace Property

/-- A property without points and brackets is its own root. -/
def IsRoot (property : String) : Prop := ∀ c ∈ property.toList, isSeparator c = false

theorem isRoot_splitRoot (path : String) : IsRoot (splitRoot path).1 := by
  have root : (splitRoot path).1 =
      String.ofList (path.toList.takeWhile fun c => !isSeparator c) := by
    simp only [splitRoot]
    split <;> rfl
  intro c member
  rw [root, String.toList_ofList] at member
  simpa using List.mem_takeWhile_imp member

end Property

open Property

namespace Parameters

/-- A structured value takes the place of a scalar parameter object, for a mapping with a name. -/
structure Displaced (p : Parameters) (mapping : ParameterMapping) (value : Json) : Prop where
  unstored : p.additional.get? (splitRoot mapping.property).1 = none
  scalar : p.object.isScalar = true
  structured : value.isScalar = false
  present : value ≠ .null
  named : mapping.property ≠ ""

/-- Parameters after an edit that makes a new one. -/
structure Created (p q : Parameters) (property : String) (value : Json) : Prop where
  listed : .text property ∈ q.mappings
  read : IsRoot property → q.valueOf (.text property) = value
  unread : ¬ IsRoot property → q.valueOf (.text property) = p.valueOf (.text property)

/-- Parameters after a write for a mapping. -/
structure Overwritten (p q : Parameters) (mapping : ParameterMapping) (value : Json) : Prop where
  read : q.valueOf mapping = value ↔ ¬ p.Displaced mapping value
  displaced : p.Displaced mapping value →
    q.valueOf mapping = (get? value mapping.property).getD .null

variable {p q : Parameters} {mapping : ParameterMapping} {property : String} {value : Json}

section Writes

theorem valueOf_stored {held : Json} (input : mapping.mode ≠ .output)
    (stored : p.additional.get? (splitRoot mapping.property).1 = some held) :
    p.valueOf mapping = (get? held (splitRoot mapping.property).2).getD .null := by
  simp only [valueOf, if_neg input, stored]

theorem valueOf_scalar (input : mapping.mode ≠ .output)
    (unstored : p.additional.get? (splitRoot mapping.property).1 = none)
    (scalar : p.object.isScalar = true) : p.valueOf mapping = p.object := by
  simp only [valueOf, if_neg input, unstored, if_pos scalar, Option.getD_some]

theorem valueOf_structured (input : mapping.mode ≠ .output)
    (unstored : p.additional.get? (splitRoot mapping.property).1 = none)
    (structured : p.object.isScalar = false) :
    p.valueOf mapping = (get? p.object mapping.property).getD .null := by
  simp only [valueOf, if_neg input, unstored, structured, Bool.false_eq_true, if_false]

theorem Displaced.valueOf (displaced : p.Displaced mapping value)
    (input : mapping.mode ≠ .output) :
    Parameters.valueOf { p with object := value } mapping =
      (get? value mapping.property).getD .null :=
  valueOf_structured input displaced.unstored displaced.structured

theorem Displaced.lost (displaced : p.Displaced mapping value) :
    (get? value mapping.property).getD .null ≠ value := by
  cases found : get? value mapping.property with
  | none => exact fun same => displaced.present same.symm
  | some part =>
    rintro rfl
    exact get?_ne_self displaced.named found

/-- An object is read whole, unless it is structured and the mapping has a name. -/
theorem valueOf_whole (input : mapping.mode ≠ .output)
    (unstored : p.additional.get? (splitRoot mapping.property).1 = none)
    (whole : p.object.isScalar = false → mapping.property ≠ "" → p.object = .null) :
    p.valueOf mapping = p.object := by
  cases structured : p.object.isScalar with
  | true => exact valueOf_scalar input unstored structured
  | false =>
    rw [valueOf_structured input unstored structured]
    by_cases named : mapping.property = ""
    · rw [named]
      rfl
    · rw [whole structured named]
      cases found : get? Json.null mapping.property with
      | none => rfl
      | some part => exact absurd rfl (structured_of_get? named found).2

/-- What stands at the path of a mapping is read, for an object with parts is not scalar. -/
theorem valueOf_within (input : mapping.mode ≠ .output)
    (unstored : p.additional.get? (splitRoot mapping.property).1 = none)
    (found : get? p.object mapping.property = some value) : p.valueOf mapping = value := by
  cases structured : p.object.isScalar with
  | false => rw [valueOf_structured input unstored structured, found, Option.getD_some]
  | true =>
    rw [valueOf_scalar input unstored structured]
    by_cases named : mapping.property = ""
    · rw [named] at found
      exact Option.some.inj found
    · cases structured.symm.trans (structured_of_get? named found).1

theorem Placed.overwritten (input : mapping.mode ≠ .output)
    (placed : p.Placed mapping value q) : Overwritten p q mapping value := by
  cases placed with
  | @additional held new stored set =>
    have kept : ¬ p.Displaced mapping value := fun displaced => by
      cases stored.symm.trans displaced.unstored
    refine ⟨iff_of_true ?_ kept, fun displaced => absurd displaced kept⟩
    have known : p.additional.contains (splitRoot mapping.property).1 = true :=
      Option.isSome_of_eq_some stored
    have stored' := (Members.get?_replace _ new p.additional known _).trans (if_pos rfl)
    exact (valueOf_stored input stored').trans (congrArg (Option.getD · .null) (get?_set? set))
  | whole unstored scalar =>
    refine ⟨⟨fun same displaced => ?_, fun kept => ?_⟩, fun displaced => displaced.valueOf input⟩
    · exact displaced.lost ((displaced.valueOf input).symm.trans same)
    · refine valueOf_whole input unstored fun structured named => ?_
      by_contra present
      exact kept ⟨unstored, scalar, structured, present, named⟩
  | within unstored structured set =>
    have kept : ¬ p.Displaced mapping value := fun displaced => by
      cases structured.symm.trans displaced.scalar
    exact ⟨iff_of_true (valueOf_within input unstored (get?_set? set)) kept,
      fun displaced => absurd displaced kept⟩

end Writes

/-- Every edit that makes a new parameter stores the value under the property. -/
theorem stored_of_created {e : Edit} (created : e.created? = some (property, value))
    (done : p.edit? e = some q) : .text property ∈ q.mappings ∧ q.object = p.object ∧
      q.additional = p.additional.insert property value := by
  have effect := p.edit_effect e
  rw [edit, done, Option.getD_some] at effect
  cases effect with
  | refused refused => cases refused.symm.trans done
  | added | inserted | rebound =>
    cases created
    refine ⟨?_, rfl, rfl⟩
    simp [mappings]
  | removed | written => cases created

theorem created_of_edit? {e : Edit} (created : e.created? = some (property, value))
    (done : p.edit? e = some q) : Created p q property value := by
  obtain ⟨listed, object, additional⟩ := stored_of_created created done
  refine ⟨listed, fun root => valueOf_text root ?_, fun path => valueOf_congr object ?_⟩
  · rw [additional, Members.get?_insert, if_pos rfl]
  · have apart : (splitRoot property).1 ≠ property := fun same =>
      path (same ▸ isRoot_splitRoot property)
    rw [additional]
    exact (Members.get?_insert property value p.additional _).trans (if_neg apart)

/-- A value that was written is read, for a new parameter exactly if its property is its own root or
the value was read before, and for a mapping exactly if the value displaces no scalar parameter
object. -/
theorem written_value_read (p q : Parameters) :
    (∀ e property value, Edit.created? e = some (property, value) → p.edit? e = some q →
      Created p q property value) ∧
    ∀ mapping value, mapping.mode ≠ .output → p.setValueOf? mapping value = some q →
      Overwritten p q mapping value :=
  ⟨fun _ _ _ => created_of_edit?,
    fun _ _ input written => (placed_of_setValueOf? written).overwritten input⟩

end Parameters

namespace Sample

/-- One parameter, whose value is the parameter object itself. -/
def scalarObject : Parameters := .ofBound ⟨"SELECT ?", [.text "id"], .string "a", []⟩

end Sample

open Sample in
/-- A new parameter under a path reads what the parameter object holds, and a scalar parameter
object that became structured reads null. -/
theorem written_value_unread :
    (scalarObject.add "item.name" (.string "b")).valueOf (.text "item.name") = .string "a" ∧
    (scalarObject.setValueOf? (.text "id") (.object [("item", .string "b")])).map
      (Parameters.valueOf · (.text "id")) = some .null := by
  constructor
  · with_unfolding_all rfl
  · with_unfolding_all rfl

end SealedColumns
