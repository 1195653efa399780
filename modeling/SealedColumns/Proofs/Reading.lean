import Mathlib.Data.List.TakeWhile
import SealedColumns.Parameters
import SealedColumns.Proofs.Members
import SealedColumns.Supply

/-!
What parameters read once new names hold values: a new name its own value, and a mapping whose root
is no new name what it read before.
-/
namespace SealedColumns

namespace Property

theorem splitRoot_plain {name : String} (plain : ∀ c ∈ name.toList, isSeparator c = false) :
    splitRoot name = (name, "") := by
  have all : ∀ c ∈ name.toList, (!isSeparator c) = true := fun c member => by
    rw [plain c member]
    rfl
  have root : name.toList.takeWhile (fun c => !isSeparator c) = name.toList :=
    List.takeWhile_eq_self_iff.mpr all
  have rest : name.toList.dropWhile (fun c => !isSeparator c) = [] :=
    List.dropWhile_eq_nil_iff.mpr all
  simp [splitRoot, root, rest]

theorem get?_whole (root : Json) : get? root "" = some root := rfl

end Property

namespace Parameters

variable {p q : Parameters}

/-- A parameter under a plain name reads the value that the name holds. -/
theorem valueOf_text {name : String} {value : Json}
    (plain : ∀ c ∈ name.toList, Property.isSeparator c = false)
    (held : p.additional.get? name = some value) : p.valueOf (.text name) = value := by
  have mode : (ParameterMapping.text name).mode ≠ .output := ParameterMode.noConfusion
  simp only [valueOf, if_neg mode]
  simp only [ParameterMapping.text, Property.splitRoot_plain plain, held, Property.get?_whole,
    Option.getD_some]

theorem valueOf_congr {m : ParameterMapping} (object : q.object = p.object)
    (root : q.additional.get? (Property.splitRoot m.property).1 =
      p.additional.get? (Property.splitRoot m.property).1) : q.valueOf m = p.valueOf m := by
  simp only [valueOf, object, root]

end Parameters

end SealedColumns
