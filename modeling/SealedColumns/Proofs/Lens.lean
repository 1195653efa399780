import SealedColumns.Proofs.Cells

/-!
Paths as lenses on JSON values. What is set at a path is read there, and nothing else changes: the
last of two values set at one path counts, setting what is there changes nothing, paths that part
from each other do not meet, and outside of the cell that is written at most one object gains one
key. A path is a way of writing a place, and reading, updating and setting follow the same place.
-/
namespace SealedColumns

namespace Members

variable {α : Type}

theorem replace_replace (key : String) (first second : α) (m : Members α) :
    replace key second (m.replace key first) = m.replace key second := by
  induction m with
  | nil => rfl
  | cons pair rest ih =>
    obtain ⟨k, v⟩ := pair
    by_cases here : k = key
    · simp only [replace, if_pos here]
    · simp only [replace, if_neg here, ih]

theorem replace_insertNew (key : String) (first second : α) {m : Members α}
    (new : m.get? key = none) :
    replace key second (m.insertNew key first) = m.insertNew key second := by
  induction m with
  | nil => simp only [insertNew, replace, if_true]
  | cons pair rest ih =>
    obtain ⟨k, v⟩ := pair
    have other : k ≠ key := by
      rintro rfl
      simp [get?] at new
    have later : get? key rest = none := by simpa [get?, other] using new
    simp only [insertNew]
    split
    · simp only [replace, if_true]
    · simp only [replace, if_neg other, ih later]

theorem insert_of_get? {key : String} {old : α} {m : Members α} (found : m.get? key = some old)
    (value : α) : m.insert key value = m.replace key value := by
  rw [insert, contains, found]
  rfl

theorem insert_of_absent {key : String} {m : Members α} (absent : m.get? key = none)
    (value : α) : m.insert key value = m.insertNew key value := by
  rw [insert, contains, absent]
  rfl

/-- The last of two values under one key counts. -/
theorem insert_insert (key : String) (first second : α) (m : Members α) :
    insert key second (m.insert key first) = m.insert key second := by
  have held : get? key (m.insert key first) = some first := by rw [get?_insert, if_pos rfl]
  rw [insert_of_get? held]
  cases found : m.get? key with
  | some old => rw [insert_of_get? found, insert_of_get? found, replace_replace]
  | none => rw [insert_of_absent found, insert_of_absent found, replace_insertNew key _ _ found]

theorem perm_insertNew (key : String) (value : α) (m : Members α) :
    (m.insertNew key value).Perm ((key, value) :: m) := by
  induction m with
  | nil => exact .refl _
  | cons pair rest ih =>
    simp only [insertNew]
    split
    · exact .refl _
    · exact (ih.cons pair).trans (.swap _ _ rest)

end Members

namespace Property

variable {value new updated : Json} {place : Place}

section Children

theorem replaceChild_same {child : Json} {segment : Segment}
    (found : child? value segment = some child) : replaceChild value child segment = value := by
  cases segment with
  | key name =>
    cases value with
    | object members => exact congrArg Json.object (Members.replace_same found)
    | _ => rfl
  | index position =>
    cases value with
    | array items =>
      obtain ⟨inside, here⟩ := List.getElem?_eq_some_iff.mp found
      rw [replaceChild, ← here, List.set_getElem_self]
    | _ => rfl

theorem replaceChild_replaceChild (value first second : Json) (segment : Segment) :
    replaceChild (replaceChild value first segment) second segment =
      replaceChild value second segment := by
  cases segment with
  | key name =>
    cases value with
    | object members => exact congrArg Json.object (Members.replace_replace name first second _)
    | _ => rfl
  | index position =>
    cases value with
    | array items => exact congrArg Json.array (List.set_set first)
    | _ => rfl

end Children

section Cells

theorem isSome_updateAt? (value new : Json) (place : Place) :
    (updateAt? value new place).isSome = (getAt? value place).isSome := by
  induction place generalizing value with
  | nil => rfl
  | cons segment place ih =>
    cases found : child? value segment with
    | none => simp only [updateAt?, getAt?, found, Option.bind_eq_bind, Option.bind_none]
    | some child =>
      simp only [updateAt?, getAt?, found, Option.bind_eq_bind, Option.bind_some, ← ih child]
      cases updateAt? child new place <;> rfl

/-- A cell that gets the value it has stays as it is, and so does the whole. -/
theorem updateAt?_same {old : Json} (found : getAt? value place = some old) :
    updateAt? value old place = some value := by
  induction place generalizing value with
  | nil =>
    cases found
    rfl
  | cons segment place ih =>
    obtain ⟨child, here, below⟩ := Option.bind_eq_some_iff.mp found
    exact updateAt?_cons.mpr ⟨child, child, here, ih below, replaceChild_same here⟩

/-- A write goes through the cell above it. -/
theorem updateAt?_append (value new : Json) (parents rest : Place) :
    updateAt? value new (parents ++ rest) = (getAt? value parents).bind fun parent =>
      (updateAt? parent new rest).bind fun parent' => updateAt? value parent' parents := by
  induction parents generalizing value with
  | nil => exact (Option.bind_fun_some _).symm
  | cons segment parents ih =>
    simp only [List.cons_append, updateAt?, getAt?, Option.bind_eq_bind, Option.bind_assoc]
    cases child? value segment with
    | none => rfl
    | some child => simp only [ih, Option.bind_some, Option.bind_assoc]

theorem setAt?_cons (value new : Json) (segment : Segment) {rest : Place} (more : rest ≠ []) :
    setAt? value new (segment :: rest) = (child? value segment).bind fun child =>
      (setAt? child new rest).bind fun child' => some (replaceChild value child' segment) := by
  cases rest with
  | nil => exact absurd rfl more
  | cons next rest => simp only [setAt?, Option.bind_eq_bind]

theorem setAt?_concat (value new : Json) (parents : Place) (last : Segment) :
    setAt? value new (parents ++ [last]) = (getAt? value parents).bind fun parent =>
      (setAt? parent new [last]).bind fun parent' => updateAt? value parent' parents := by
  induction parents generalizing value with
  | nil => exact (Option.bind_fun_some _).symm
  | cons segment parents ih =>
    rw [List.cons_append, setAt?_cons value new segment (by simp)]
    simp only [getAt?, updateAt?, Option.bind_eq_bind, Option.bind_assoc]
    cases child? value segment with
    | none => rfl
    | some child => simp only [ih, Option.bind_some, Option.bind_assoc]

end Cells

/-- All that setting a value at a place can do: the cell that is there is written, or the object
above it gains a member. -/
inductive Puts (value new : Json) : Place → Json → Prop where
  | written {place : Place} {old updated : Json} : getAt? value place = some old →
      updateAt? value new place = some updated → Puts value new place updated
  | inserted {parents : Place} {name : String} {members : Members Json} {updated : Json} :
      getAt? value parents = some (.object members) → members.get? name = none →
        updateAt? value (.object (members.insertNew name new)) parents = some updated →
          Puts value new (parents ++ [.key name]) updated

theorem getAt?_concat (value : Json) (parents : Place) (last : Segment) :
    getAt? value (parents ++ [last]) = (getAt? value parents).bind (child? · last) := by
  rw [getAt?_append]
  exact congrArg _ (funext fun parent => Option.bind_fun_some _)

theorem updateAt?_last {old : Json} {last : Segment} (found : child? value last = some old) :
    updateAt? value new [last] = some (replaceChild value new last) :=
  updateAt?_cons.mpr ⟨old, new, found, rfl, rfl⟩

theorem setAt?_last {old : Json} {last : Segment} (found : child? value last = some old) :
    setAt? value new [last] = some (replaceChild value new last) := by
  cases last with
  | key name =>
    cases value with
    | object members =>
      exact congrArg (fun m => some (Json.object m)) (Members.insert_of_get? found new)
    | _ => cases found
  | index position =>
    cases value with
    | array items => exact if_pos (List.getElem?_eq_some_iff.mp found).1
    | _ => cases found

/-- Only an object takes a last segment that is not there, and only as a name. -/
theorem setAt?_last_absent {last : Segment} (absent : child? value last = none) :
    setAt? value new [last] = some updated ↔ ∃ name members, last = .key name ∧
      value = .object members ∧ updated = .object (Members.insertNew name new members) := by
  cases last with
  | key name =>
    cases value with
    | object members =>
      simp only [setAt?, Members.insert_of_absent absent, Option.some.injEq, Segment.key.injEq,
        Json.object.injEq, exists_and_left, exists_eq_left', eq_comm]
    | _ => simp [setAt?]
  | index position =>
    cases value with
    | array items =>
      have outside : ¬ position < items.length :=
        Nat.not_lt.mpr (List.getElem?_eq_none_iff.mp absent)
      simp [setAt?, outside]
    | _ => simp [setAt?]

/-- A cell that is there is set as it is updated. -/
theorem setAt?_of_getAt? {old : Json} (inside : place ≠ [])
    (found : getAt? value place = some old) (new : Json) :
    setAt? value new place = updateAt? value new place := by
  obtain rfl | ⟨parents, last, rfl⟩ := List.eq_nil_or_concat place
  · exact absurd rfl inside
  · rw [List.concat_eq_append] at found ⊢
    rw [getAt?_concat] at found
    obtain ⟨parent, above, here⟩ := Option.bind_eq_some_iff.mp found
    rw [setAt?_concat, updateAt?_append, above, Option.bind_some, Option.bind_some,
      setAt?_last here, updateAt?_last here]

theorem setAt?_eq_some_iff : setAt? value new place = some updated ↔
    place ≠ [] ∧ Puts value new place updated := by
  constructor
  · intro set
    obtain rfl | ⟨parents, last, rfl⟩ := List.eq_nil_or_concat place
    · cases set
    · rw [List.concat_eq_append] at set ⊢
      refine ⟨by simp, ?_⟩
      cases found : getAt? value (parents ++ [last]) with
      | some old => exact .written found ((setAt?_of_getAt? (by simp) found new).symm.trans set)
      | none =>
        rw [setAt?_concat] at set
        obtain ⟨parent, above, step⟩ := Option.bind_eq_some_iff.mp set
        obtain ⟨parent', last', done⟩ := Option.bind_eq_some_iff.mp step
        rw [getAt?_concat, above] at found
        obtain ⟨name, members, rfl, rfl, rfl⟩ := (setAt?_last_absent found).mp last'
        exact .inserted above found done
  · rintro ⟨inside, puts⟩
    cases puts with
    | written found update => exact (setAt?_of_getAt? inside found new).trans update
    | @inserted parents name members _ above absent update =>
      have nothing : child? (.object members) (.key name) = none := absent
      have step : setAt? (.object members) new [.key name] =
          some (.object (Members.insertNew name new members)) :=
        (setAt?_last_absent nothing).mpr ⟨name, members, rfl, rfl, rfl⟩
      rw [setAt?_concat, above, Option.bind_some, step, Option.bind_some]
      exact update

/-- The place that a path leads to: the root for the empty path, and none for a malformed one. -/
def place? (path : String) : Option Place := if path = "" then some [] else segments? path

section Places

variable {root : Json} {path : String}

theorem get?_eq (root : Json) (path : String) :
    get? root path = (place? path).bind (getAt? root) := by
  unfold get? place?
  split <;> rfl

theorem update?_eq (root value : Json) (path : String) :
    update? root path value = (place? path).bind (updateAt? root value) := by
  unfold update? place?
  split <;> rfl

/-- A path is set exactly if it leads to a place where the value can be put. -/
theorem set?_eq_some_iff : set? root path value = some updated ↔
    ∃ place, place? path = some place ∧ Puts root value place updated := by
  unfold set? place?
  split
  · constructor
    · intro set
      exact ⟨[], rfl, .written rfl set⟩
    · rintro ⟨place, whole, puts⟩
      cases whole
      generalize nothing : ([] : Place) = place at puts
      cases puts with
      | written found update =>
        subst nothing
        exact update
      | inserted => simp at nothing
  · rw [Option.bind_eq_bind, Option.bind_eq_some_iff]
    refine exists_congr fun place => and_congr_right fun named => ?_
    rw [setAt?_eq_some_iff]
    exact and_iff_right (segments?_ne_nil named)

end Places

/-- The last of two values set at one place counts. -/
theorem setAt?_setAt? {first middle : Json} (set : setAt? value first place = some middle)
    (second : Json) : setAt? middle second place = setAt? value second place := by
  induction place generalizing value middle with
  | nil => cases set
  | cons segment rest ih =>
    by_cases more : rest = []
    · subst more
      cases segment with
      | key name =>
        cases value with
        | object members =>
          cases set
          exact congrArg (fun m => some (Json.object m)) (Members.insert_insert name first second _)
        | _ => cases set
      | index position =>
        cases value with
        | array items =>
          obtain ⟨inside, whole⟩ := Option.ite_none_right_eq_some.mp set
          cases whole
          simp only [setAt?, List.length_set, List.set_set]
        | _ => cases set
    · rw [setAt?_cons _ _ _ more] at set
      obtain ⟨child, found, step⟩ := Option.bind_eq_some_iff.mp set
      obtain ⟨child', below, whole⟩ := Option.bind_eq_some_iff.mp step
      cases whole
      rw [setAt?_cons _ _ _ more, setAt?_cons _ _ _ more, child?_replaceChild_same found, found,
        Option.bind_some, Option.bind_some, ih below]
      simp only [replaceChild_replaceChild]

section Puts

variable {parents : Place} {name : String} {members : Members Json}

theorem child?_insertNew {segment : Segment} (absent : members.get? name = none)
    (apart : segment ≠ .key name) :
    child? (.object (members.insertNew name new)) segment = child? (.object members) segment := by
  cases segment with
  | key asked =>
    have different : asked ≠ name := fun same => apart (same ▸ rfl)
    exact (Members.get?_insertNew name new members absent asked).trans (if_neg different)
  | index position => rfl

/-- What stood in an object is there when it has a new member. -/
theorem getAt?_under_inserted {segment : Segment} {rest : Place}
    (above : getAt? value parents = some (.object members)) (absent : members.get? name = none)
    (update : updateAt? value (.object (members.insertNew name new)) parents = some updated)
    (beside : ¬ parents ++ [.key name] <+: parents ++ segment :: rest) :
    getAt? updated (parents ++ segment :: rest) = getAt? value (parents ++ segment :: rest) := by
  have apart : segment ≠ .key name := by
    rintro rfl
    exact beside ⟨rest, by simp⟩
  rw [getAt?_append, getAt?_append, (written_of_updateAt? update).here, above, Option.bind_some,
    Option.bind_some, getAt?, getAt?, child?_insertNew absent apart]

theorem Puts.here (puts : Puts value new place updated) : getAt? updated place = some new := by
  cases puts with
  | written _ update => exact (written_of_updateAt? update).here
  | inserted _ absent update =>
    rw [getAt?_append, (written_of_updateAt? update).here, Option.bind_some, getAt?_key,
      Members.get?_insertNew _ _ _ absent, if_pos rfl]

theorem Puts.apart (puts : Puts value new place updated) {other : Place}
    (ahead : ¬ place <+: other) (behind : ¬ other <+: place) :
    getAt? updated other = getAt? value other := by
  cases puts with
  | written _ update => exact (written_of_updateAt? update).apart other ahead behind
  | @inserted parents name members _ above absent update =>
    by_cases below : parents <+: other
    · obtain ⟨_ | ⟨segment, rest⟩, rfl⟩ := below
      · exact absurd ⟨[.key name], by simp⟩ behind
      · exact getAt?_under_inserted above absent update ahead
    · exact (written_of_updateAt? update).apart other below fun up =>
        behind (up.trans (List.prefix_append _ _))

end Puts

/-- What a cell outside of the one that is written may become: an array keeps its length, an object
its keys, but that the one above gains the last segment, and every other cell keeps its value. -/
inductive Around (place other : Place) : Option Json → Option Json → Prop where
  | same (cell : Option Json) : Around place other cell cell
  | array {items items' : List Json} : items'.length = items.length →
      Around place other (some (.array items)) (some (.array items'))
  | object {members members' : Members Json} : Members.keys members' = members.keys →
      Around place other (some (.object members)) (some (.object members'))
  | grown {members members' : Members Json} {name : String} : place = other ++ [.key name] →
      name ∉ members.keys → (Members.keys members').Perm (name :: members.keys) →
        Around place other (some (.object members)) (some (.object members'))

theorem around_of_outline {other : Place} {before after : Option Json}
    (same : after.map Json.outline = before.map Json.outline) :
    Around place other before after := by
  cases before with
  | none =>
    obtain rfl := Option.map_eq_none_iff.mp same
    exact .same none
  | some cell =>
    obtain ⟨cell', rfl, outline⟩ := Option.map_eq_some_iff.mp same
    cases cell with
    | array items =>
      cases cell' with
      | array items' => exact .array (by simpa using congrArg List.length (Json.array.inj outline))
      | _ => cases outline
    | object members =>
      obtain ⟨members', rfl, keys⟩ := Json.object_of_outline outline
      exact .object keys
    | _ =>
      cases cell' <;> cases outline
      exact .same _

theorem Puts.around (puts : Puts value new place updated) {other : Place}
    (outside : ¬ place <+: other) :
    Around place other (getAt? value other) (getAt? updated other) := by
  cases puts with
  | written _ update =>
    exact around_of_outline ((written_of_updateAt? update).outside other outside)
  | @inserted parents name members _ above absent update =>
    by_cases below : parents <+: other
    · obtain ⟨_ | ⟨segment, rest⟩, rfl⟩ := below
      · rw [List.append_nil, above, (written_of_updateAt? update).here]
        have fresh : name ∉ members.keys := fun member => by
          have known := (Members.get?_isSome_iff name members).mpr member
          rw [absent] at known
          cases known
        exact .grown rfl fresh ((Members.perm_insertNew name new members).map Prod.fst)
      · rw [getAt?_under_inserted above absent update outside]
        exact .same _
    · exact around_of_outline ((written_of_updateAt? update).outside other below)

/-- A value can be put where there is a cell, and into an object under any name. -/
def Settable (value : Json) (place : Place) : Prop :=
  (∃ old, getAt? value place = some old) ∨
    ∃ parents name members, place = parents ++ [.key name] ∧
      getAt? value parents = some (.object members)

theorem exists_puts_iff : (∃ updated, Puts value new place updated) ↔ Settable value place := by
  constructor
  · rintro ⟨updated, puts⟩
    cases puts with
    | written found => exact .inl ⟨_, found⟩
    | inserted above => exact .inr ⟨_, _, _, rfl, above⟩
  · rintro (⟨old, found⟩ | ⟨parents, name, members, rfl, above⟩)
    · obtain ⟨updated, update⟩ := exists_updateAt? found new
      exact ⟨updated, .written found update⟩
    · cases found : getAt? value (parents ++ [.key name]) with
      | some old =>
        obtain ⟨updated, update⟩ := exists_updateAt? found new
        exact ⟨updated, .written found update⟩
      | none =>
        rw [getAt?_concat, above] at found
        obtain ⟨updated, update⟩ :=
          exists_updateAt? above (.object (Members.insertNew name new members))
        exact ⟨updated, .inserted above found update⟩

/-- Whether a value can be set at a path, and the root afterwards. A path that is refused leaves it
as it is. -/
def assigned (root : Json) (path : String) (value : Json) : Bool × Json :=
  ((set? root path value).isSome, (set? root path value).getD root)

section Assigned

variable {root : Json} {path : String}

theorem assigned_of_set? (set : set? root path value = some updated) :
    assigned root path value = (true, updated) := by
  rw [assigned, set]
  rfl

theorem assigned_of_refused (refused : set? root path value = none) :
    assigned root path value = (false, root) := by
  rw [assigned, refused]
  rfl

/-- Whether a path can be set does not depend on the value. -/
theorem isSome_set?_iff : (set? root path value).isSome = true ↔
    ∃ place, place? path = some place ∧ Settable root place := by
  have settable : ∀ place, Settable root place ↔ ∃ updated, Puts root value place updated :=
    fun place => exists_puts_iff.symm
  rw [Option.isSome_iff_exists]
  simp only [set?_eq_some_iff, settable]
  exact ⟨fun ⟨updated, place, named, puts⟩ => ⟨place, named, updated, puts⟩,
    fun ⟨place, named, updated, puts⟩ => ⟨updated, place, named, puts⟩⟩

theorem set?_set? (set : set? root path value = some updated) (again : Json) :
    set? updated path again = set? root path again := by
  unfold set? at set ⊢
  split at set
  · rename_i whole
    rw [if_pos whole, if_pos whole]
  · rename_i parts
    obtain ⟨place, named, written⟩ := Option.bind_eq_some_iff.mp set
    rw [if_neg parts, if_neg parts, named]
    exact setAt?_setAt? written again

theorem assigned_assigned (root : Json) (path : String) (value again : Json) :
    assigned (assigned root path value).2 path again = assigned root path again := by
  cases set : set? root path value with
  | none => rw [assigned_of_refused set]
  | some updated =>
    rw [assigned_of_set? set]
    have settable : (set? root path again).isSome = true :=
      isSome_set?_iff.mpr (isSome_set?_iff.mp (Option.isSome_of_eq_some set))
    obtain ⟨last, set'⟩ := Option.isSome_iff_exists.mp settable
    rw [assigned_of_set? set', assigned_of_set? ((set?_set? set again).trans set')]

theorem update?_same {old : Json} (found : get? root path = some old) :
    update? root path old = some root := by
  rw [get?_eq] at found
  obtain ⟨place, named, here⟩ := Option.bind_eq_some_iff.mp found
  rw [update?_eq, named]
  exact updateAt?_same here

/-- A cell that is there is set as it is updated. -/
theorem set?_of_get? {old : Json} (found : get? root path = some old) (value : Json) :
    set? root path value = update? root path value := by
  rw [get?_eq] at found
  obtain ⟨place, named, here⟩ := Option.bind_eq_some_iff.mp found
  obtain ⟨updated, update⟩ := exists_updateAt? here value
  rw [update?_eq, named, Option.bind_some, update, set?_eq_some_iff]
  exact ⟨place, named, .written here update⟩

theorem isSome_update? (root value : Json) (path : String) :
    (update? root path value).isSome = (get? root path).isSome := by
  rw [update?_eq, get?_eq]
  cases place? path with
  | none => rfl
  | some place => exact isSome_updateAt? root value place

end Assigned

/-- A path is a lens. What was set is read; a path is refused exactly if it leads nowhere, and then
nothing changes; the last of two values counts, and a value that is there already changes nothing;
an update finds the cell that a read finds, and writes it; a path that parts from this one reads
what it read; and outside of the cell at most one key is new, in the object above it. -/
theorem assigned_lens (root : Json) (path : String) (value : Json) :
    let done := (assigned root path value).1
    let after := (assigned root path value).2
    (done = true → get? after path = some value) ∧
    (done = false → after = root) ∧
    (done = true ↔ ∃ place, place? path = some place ∧ Settable root place) ∧
    (∀ old, get? root path = some old → assigned root path old = (true, root)) ∧
    (∀ again, assigned after path again = assigned root path again) ∧
    (update? root path value).isSome = (get? root path).isSome ∧
    (∀ old, get? root path = some old →
      update? root path old = some root ∧ update? root path value = some after) ∧
    (∀ place other beside, place? path = some place → place? other = some beside →
      ¬ place <+: beside → ¬ beside <+: place → get? after other = get? root other) ∧
    ∀ place other, place? path = some place → ¬ place <+: other →
      Around place other (getAt? root other) (getAt? after other) := by
  have reachable : (assigned root path value).1 = true ↔
      ∃ place, place? path = some place ∧ Settable root place := isSome_set?_iff
  have settled := assigned_assigned root path value
  refine ⟨?_, ?_, reachable, ?_, settled, isSome_update? root value path, ?_, ?_, ?_⟩
  · intro done
    obtain ⟨updated, set⟩ := Option.isSome_iff_exists.mp done
    rw [assigned_of_set? set]
    exact get?_set? set
  · intro refused
    exact congrArg Prod.snd
      (assigned_of_refused (Option.isNone_iff_eq_none.mp (Option.isSome_eq_false_iff.mp refused)))
  · intro old found
    exact assigned_of_set? ((set?_of_get? found old).trans (update?_same found))
  · intro old found
    obtain ⟨updated, update⟩ := Option.isSome_iff_exists.mp
      ((isSome_update? root value path).trans (Option.isSome_of_eq_some found))
    refine ⟨update?_same found, ?_⟩
    rw [assigned_of_set? ((set?_of_get? found value).trans update), update]
  · intro place other beside named named' ahead behind
    cases set : set? root path value with
    | none => rw [assigned_of_refused set]
    | some updated =>
      obtain ⟨_, here, puts⟩ := set?_eq_some_iff.mp set
      cases named.symm.trans here
      rw [assigned_of_set? set, get?_eq, get?_eq, named', Option.bind_some, Option.bind_some]
      exact puts.apart ahead behind
  · intro place other named outside
    cases set : set? root path value with
    | none =>
      rw [assigned_of_refused set]
      exact .same _
    | some updated =>
      obtain ⟨_, here, puts⟩ := set?_eq_some_iff.mp set
      cases named.symm.trans here
      rw [assigned_of_set? set]
      exact puts.around outside

end Property

end SealedColumns
