import Mathlib.Data.List.Infix
import SealedColumns.Property
import SealedColumns.Proofs.Members

/-!
Cells of a JSON value. A place is a list of segments. What is written at a place is read there; all
that lies neither above nor below stays, and what lies above keeps its keys and its length.
-/
namespace SealedColumns

namespace Json

/-- A value without what is in its children: the keys of an object, the length of an array, and any
other value whole. -/
def outline : Json → Json
  | .array items => .array (items.map fun _ => .null)
  | .object members => .object (Members.mapValues (fun _ _ => .null) members)
  | value => value

theorem outline_eq_null {value : Json} : value.outline = .null ↔ value = .null := by
  cases value <;> simp [outline]

theorem keys_of_outline {members members' : Members Json}
    (same : (Json.object members').outline = (Json.object members).outline) :
    members'.keys = members.keys := by
  have blank := congrArg Members.keys (Json.object.inj same)
  rwa [Members.keys_mapValues, Members.keys_mapValues] at blank

/-- What has the outline of an object is an object with its keys. -/
theorem object_of_outline {value : Json} {members : Members Json}
    (same : value.outline = (Json.object members).outline) :
    ∃ members', value = .object members' ∧ Members.keys members' = members.keys := by
  cases value with
  | object members' => exact ⟨members', rfl, keys_of_outline same⟩
  | _ => cases same

end Json

namespace Property

/-- The way to a cell from the root of a value. -/
abbrev Place := List Segment

section Children

variable {value child : Json} {segment : Segment}

theorem child?_replaceChild_same (found : child? value segment = some child) (new : Json) :
    child? (replaceChild value new segment) segment = some new := by
  cases segment with
  | key name =>
    cases value with
    | object members =>
      have known : Members.contains name members = true := Option.isSome_of_eq_some found
      exact (Members.get?_replace name new members known name).trans (if_pos rfl)
    | _ => cases found
  | index position =>
    cases value with
    | array items => exact List.getElem?_set_self (List.getElem?_eq_some_iff.mp found).1
    | _ => cases found

theorem child?_replaceChild_other {other : Segment} (found : child? value segment = some child)
    (apart : other ≠ segment) (new : Json) :
    child? (replaceChild value new segment) other = child? value other := by
  cases segment with
  | key name =>
    cases value with
    | object members =>
      have known : Members.contains name members = true := Option.isSome_of_eq_some found
      cases other with
      | key asked =>
        have different : asked ≠ name := fun same => apart (same ▸ rfl)
        exact (Members.get?_replace name new members known asked).trans (if_neg different)
      | index asked => rfl
    | _ => cases found
  | index position =>
    cases value with
    | array items =>
      cases other with
      | key asked => rfl
      | index asked =>
        have different : position ≠ asked := fun same => apart (same ▸ rfl)
        exact List.getElem?_set_ne different
    | _ => cases found

theorem outline_replaceChild (value new : Json) (segment : Segment) :
    (replaceChild value new segment).outline = value.outline := by
  cases segment with
  | key name =>
    cases value with
    | object members =>
      have blank (m : Members Json) : Members.mapValues (fun _ _ => Json.null) m =
          m.keys.map fun key => (key, .null) := by
        rw [Members.mapValues, Members.keys, List.map_map]
        rfl
      simp only [replaceChild, Json.outline, blank, Members.keys_replace]
    | _ => rfl
  | index position =>
    cases value with
    | array items =>
      simp only [replaceChild, Json.outline, List.map_set]
      congr 1
      exact List.ext_getElem (by simp) fun n inside _ => by simp
    | _ => rfl

end Children

theorem getAt?_key (members : Members Json) (key : String) :
    getAt? (.object members) [.key key] = members.get? key :=
  Option.bind_fun_some (members.get? key)

theorem getAt?_append (value : Json) (place rest : Place) :
    getAt? value (place ++ rest) = (getAt? value place).bind (getAt? · rest) := by
  induction place generalizing value with
  | nil => rfl
  | cons segment place ih =>
    simp only [List.cons_append, getAt?, Option.bind_eq_bind, Option.bind_assoc]
    exact congrArg _ (funext ih)

theorem updateAt?_cons {value new updated : Json} {segment : Segment} {place : Place} :
    updateAt? value new (segment :: place) = some updated ↔
      ∃ child child', child? value segment = some child ∧
        updateAt? child new place = some child' ∧ replaceChild value child' segment = updated := by
  simp only [updateAt?, Option.bind_eq_bind, Option.bind_eq_some_iff, Option.some.injEq]
  exact ⟨fun ⟨child, found, child', below, done⟩ => ⟨child, child', found, below, done⟩,
    fun ⟨child, child', found, below, done⟩ => ⟨child, found, child', below, done⟩⟩

/-- A cell that is there can be written. -/
theorem exists_updateAt? {value old : Json} {place : Place}
    (found : getAt? value place = some old) (new : Json) :
    ∃ updated, updateAt? value new place = some updated := by
  induction place generalizing value with
  | nil => exact ⟨new, rfl⟩
  | cons segment place ih =>
    obtain ⟨child, here, below⟩ := Option.bind_eq_some_iff.mp found
    obtain ⟨child', written⟩ := ih below
    exact ⟨_, updateAt?_cons.mpr ⟨child, child', here, written, rfl⟩⟩

/-- A value after a cell was written: the new one is read at its place, cells apart from it are as
they were, and so are the outlines of those above it. -/
structure Written (value : Json) (place : Place) (new updated : Json) : Prop where
  here : getAt? updated place = some new
  apart : ∀ other, ¬ place <+: other → ¬ other <+: place →
    getAt? updated other = getAt? value other
  outside : ∀ other, ¬ place <+: other →
    (getAt? updated other).map Json.outline = (getAt? value other).map Json.outline

theorem written_of_updateAt? {value new updated : Json} {place : Place}
    (update : updateAt? value new place = some updated) : Written value place new updated := by
  induction place generalizing value updated with
  | nil =>
    cases update
    exact ⟨rfl, fun other _ beside => absurd List.nil_prefix ‹_›,
      fun other beside => absurd List.nil_prefix beside⟩
  | cons segment place ih =>
    obtain ⟨child, child', found, below, rfl⟩ := updateAt?_cons.mp update
    have inner := ih below
    have same := child?_replaceChild_same found child'
    refine ⟨?_, ?_, ?_⟩
    · rw [getAt?, same]
      exact inner.here
    · intro other ahead behind
      cases other with
      | nil => exact absurd List.nil_prefix behind
      | cons first other =>
        by_cases along : first = segment
        · subst along
          rw [List.cons_prefix_cons, not_and] at ahead behind
          rw [getAt?, getAt?, same, found]
          exact inner.apart other (ahead rfl) (behind rfl)
        · rw [getAt?, getAt?, child?_replaceChild_other found along]
    · intro other ahead
      cases other with
      | nil => exact congrArg some (outline_replaceChild value child' segment)
      | cons first other =>
        by_cases along : first = segment
        · subst along
          rw [List.cons_prefix_cons, not_and] at ahead
          rw [getAt?, getAt?, same, found]
          exact inner.outside other (ahead rfl)
        · rw [getAt?, getAt?, child?_replaceChild_other found along]

/-- What is set at a place is read there, whether the last segment was there before or not. -/
theorem getAt?_setAt? {value new updated : Json} {place : Place}
    (set : setAt? value new place = some updated) : getAt? updated place = some new := by
  induction place generalizing value updated with
  | nil => cases set
  | cons segment place ih =>
    cases place with
    | nil =>
      cases segment with
      | key name =>
        cases value with
        | object members =>
          cases set
          simp [getAt?, child?, Json.field?, Members.get?_insert]
        | _ => cases set
      | index position =>
        cases value with
        | array items =>
          simp only [setAt?, Option.ite_none_right_eq_some, Option.some.injEq] at set
          obtain ⟨inside, rfl⟩ := set
          simp [getAt?, child?, Json.item?, inside]
        | _ => cases set
    | cons next rest =>
      simp only [setAt?, Option.bind_eq_bind, Option.bind_eq_some_iff, Option.some.injEq] at set
      obtain ⟨child, found, child', below, rfl⟩ := set
      rw [getAt?, child?_replaceChild_same found]
      exact ih below

theorem get?_set? {root value updated : Json} {path : String}
    (set : set? root path value = some updated) : get? updated path = some value := by
  unfold set? at set
  unfold get?
  split at set
  · rename_i whole
    rw [if_pos whole]
    exact set.symm
  · rename_i parts
    obtain ⟨place, named, written⟩ := Option.bind_eq_some_iff.mp set
    rw [if_neg parts, named]
    exact getAt?_setAt? written

theorem sizeOf_child? {value child : Json} {segment : Segment}
    (found : child? value segment = some child) : sizeOf child < sizeOf value := by
  cases segment with
  | key name =>
    cases value with
    | object members =>
      have inside := List.sizeOf_lt_of_mem (Members.mem_of_get? found)
      simp only [Prod.mk.sizeOf_spec] at inside
      simp only [Json.object.sizeOf_spec]
      omega
    | _ => cases found
  | index position =>
    cases value with
    | array items =>
      have inside := List.sizeOf_lt_of_mem (List.mem_of_getElem? found)
      simp only [Json.array.sizeOf_spec]
      omega
    | _ => cases found

theorem sizeOf_getAt? {value part : Json} {place : Place} (found : getAt? value place = some part) :
    sizeOf part ≤ sizeOf value := by
  induction place generalizing value with
  | nil =>
    cases found
    exact Nat.le_refl _
  | cons segment place ih =>
    obtain ⟨child, here, below⟩ := Option.bind_eq_some_iff.mp found
    exact Nat.le_trans (ih below) (Nat.le_of_lt (sizeOf_child? here))

/-- No value is a part of itself. -/
theorem getAt?_ne_self {value : Json} {place : Place} (inside : place ≠ []) :
    getAt? value place ≠ some value := by
  intro same
  cases place with
  | nil => exact inside rfl
  | cons segment place =>
    obtain ⟨child, here, below⟩ := Option.bind_eq_some_iff.mp same
    exact Nat.lt_irrefl _ (Nat.lt_of_le_of_lt (sizeOf_getAt? below) (sizeOf_child? here))

/-- Only an object or an array has parts. -/
theorem structured_of_getAt? {value part : Json} {place : Place} (inside : place ≠ [])
    (found : getAt? value place = some part) : value.isScalar = false ∧ value ≠ .null := by
  cases place with
  | nil => exact absurd rfl inside
  | cons segment place =>
    obtain ⟨child, here, -⟩ := Option.bind_eq_some_iff.mp found
    cases segment <;> cases value <;> first | cases here | exact ⟨rfl, nofun⟩

theorem segments?_ne_nil {path : String} {place : Place} (named : segments? path = some place) :
    place ≠ [] := by
  obtain ⟨joined, -, some⟩ := Option.bind_eq_some_iff.mp named
  rintro rfl
  split at some
  · cases some
  · rename_i filled
    cases some
    exact filled rfl

/-- A path that is not empty leads inside of a value. -/
theorem exists_of_get? {root value : Json} {path : String} (named : path ≠ "")
    (found : get? root path = some value) :
    ∃ place, place ≠ [] ∧ getAt? root place = some value := by
  rw [get?, if_neg named] at found
  obtain ⟨place, parts, part⟩ := Option.bind_eq_some_iff.mp found
  exact ⟨place, segments?_ne_nil parts, part⟩

theorem structured_of_get? {root value : Json} {path : String} (named : path ≠ "")
    (found : get? root path = some value) : root.isScalar = false ∧ root ≠ .null := by
  obtain ⟨place, inside, part⟩ := exists_of_get? named found
  exact structured_of_getAt? inside part

theorem get?_ne_self {root : Json} {path : String} (named : path ≠ "") :
    get? root path ≠ some root := by
  intro same
  obtain ⟨place, inside, part⟩ := exists_of_get? named same
  exact getAt?_ne_self inside part

end Property

end SealedColumns
