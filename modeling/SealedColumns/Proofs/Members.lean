import Mathlib.Data.List.Nodup
import Mathlib.Tactic.Tauto
import SealedColumns.Json.Value

/-!
Members after an insertion or a replacement, and the values of members under other keys.
-/
namespace SealedColumns.Members

variable {α : Type} {f : String → α → α}

theorem get?_replace (key : String) (value : α) (m : Members α) (known : m.contains key = true)
    (k : String) : get? k (m.replace key value) = if k = key then some value else m.get? k := by
  induction m with
  | nil => cases known
  | cons pair rest ih =>
    obtain ⟨j, v⟩ := pair
    by_cases here : j = key
    · subst here
      simp only [replace, get?, if_true]
      by_cases asked : k = j
      · simp [asked]
      · simp [asked, Ne.symm asked]
    · have later : contains key rest = true := by
        simpa [contains, get?, here] using known
      simp only [replace, if_neg here, get?, ih later]
      by_cases asked : j = k
      · subst asked
        simp [here]
      · simp [asked]

theorem get?_insertNew (key : String) (value : α) (m : Members α) (new : m.get? key = none)
    (k : String) : get? k (m.insertNew key value) = if k = key then some value else m.get? k := by
  induction m with
  | nil => simp [insertNew, get?, eq_comm]
  | cons pair rest ih =>
    obtain ⟨j, v⟩ := pair
    have other : j ≠ key := by
      intro same
      simp [get?, same] at new
    have later : get? key rest = none := by simpa [get?, other] using new
    unfold insertNew
    split
    · simp [get?, eq_comm]
    · simp only [get?, ih later]
      by_cases asked : j = k
      · subst asked
        simp [other]
      · simp [asked]

theorem get?_insert (key : String) (value : α) (m : Members α) (k : String) :
    get? k (m.insert key value) = if k = key then some value else m.get? k := by
  unfold insert
  split
  · rename_i known
    exact get?_replace key value m known k
  · rename_i new
    exact get?_insertNew key value m (by simpa [contains] using new) k

theorem mem_insertNew (key : String) (value : α) (m : Members α) (x : String × α) :
    x ∈ insertNew key value m ↔ x = (key, value) ∨ x ∈ m := by
  induction m with
  | nil => simp [insertNew]
  | cons pair rest ih =>
    simp only [insertNew]
    split
    · simp only [List.mem_cons]
    · simp only [List.mem_cons, ih]
      tauto

theorem mem_of_get? {key : String} {value : α} {m : Members α}
    (found : get? key m = some value) : (key, value) ∈ m := by
  induction m with
  | nil => cases found
  | cons pair rest ih =>
    obtain ⟨k, v⟩ := pair
    simp only [get?] at found
    split at found
    · rename_i same
      cases found
      rw [same]
      exact List.mem_cons_self
    · exact List.mem_cons_of_mem _ (ih found)

theorem insert_single (key : String) (old new : α) :
    insert key new [(key, old)] = [(key, new)] := by
  simp [insert, contains, get?, replace]

theorem get?_single (key : String) (value : α) :
    get? key [(key, value)] = some value := by
  simp [get?]

def mapValues {β : Type} (f : String → α → β) (m : Members α) : Members β :=
  m.map fun (key, value) => (key, f key value)

theorem get?_mapValues (asked : String) (m : Members α) :
    get? asked (mapValues f m) = (get? asked m).map (f asked) := by
  induction m with
  | nil => rfl
  | cons pair rest ih =>
    obtain ⟨key, value⟩ := pair
    simp only [mapValues, List.map_cons, get?] at ih ⊢
    split
    · rename_i same
      rw [same]
      rfl
    · exact ih

theorem insert_mapValues (key : String) (value : α) (m : Members α) :
    insert key (f key value) (mapValues f m) = mapValues f (m.insert key value) := by
  have replaced : ∀ m : Members α, replace key (f key value) (mapValues f m) =
      mapValues f (m.replace key value) := by
    intro m
    induction m with
    | nil => rfl
    | cons pair rest ih =>
      obtain ⟨k, v⟩ := pair
      simp only [mapValues, List.map_cons, replace] at ih ⊢
      split
      · rename_i same
        rw [same]
        rfl
      · rw [ih]
        rfl
  have inserted : ∀ m : Members α, insertNew key (f key value) (mapValues f m) =
      mapValues f (m.insertNew key value) := by
    intro m
    induction m with
    | nil => rfl
    | cons pair rest ih =>
      obtain ⟨k, v⟩ := pair
      simp only [mapValues, List.map_cons, insertNew] at ih ⊢
      split
      · rfl
      · rw [ih]
        rfl
  unfold insert contains
  rw [get?_mapValues, Option.isSome_map, replaced, inserted]
  split <;> rfl

theorem ofList_mapValues (pairs : List (String × α)) :
    ofList (mapValues f pairs) = mapValues f (ofList pairs) := by
  have grown : ∀ (pairs : List (String × α)) (m : Members α),
      (mapValues f pairs).foldl (fun m (k, v) => insert k v m) (mapValues f m) =
        mapValues f (pairs.foldl (fun m (k, v) => insert k v m) m) := by
    intro pairs
    induction pairs with
    | nil => exact fun _ => rfl
    | cons pair rest ih =>
      intro m
      rw [List.foldl_cons, ← ih, ← insert_mapValues]
      rfl
  exact grown pairs []

theorem keys_replace (key : String) (value : α) (m : Members α) :
    keys (m.replace key value) = m.keys := by
  induction m with
  | nil => rfl
  | cons pair rest ih =>
    obtain ⟨k, v⟩ := pair
    simp only [replace]
    split
    · rfl
    · exact congrArg (List.cons k) ih

theorem replace_same {key : String} {value : α} {m : Members α} (found : m.get? key = some value) :
    m.replace key value = m := by
  induction m with
  | nil => rfl
  | cons pair rest ih =>
    obtain ⟨k, v⟩ := pair
    simp only [get?] at found
    simp only [replace]
    split
    · rename_i same
      rw [if_pos same] at found
      rw [Option.some.inj found]
    · rename_i other
      rw [if_neg other] at found
      rw [ih found]

theorem get?_isSome_iff (key : String) (m : Members α) :
    (get? key m).isSome = true ↔ key ∈ m.keys := by
  induction m with
  | nil => simp [get?, keys]
  | cons pair rest ih =>
    obtain ⟨k, v⟩ := pair
    simp only [get?, keys, List.map_cons, List.mem_cons] at ih ⊢
    by_cases same : k = key
    · simp [same]
    · simp [same, ih, Ne.symm same]

theorem mem_keys_insertNew (key asked : String) (value : α) (m : Members α) :
    asked ∈ keys (m.insertNew key value) ↔ asked = key ∨ asked ∈ m.keys := by
  simp only [keys, List.mem_map, mem_insertNew]
  constructor
  · rintro ⟨pair, rfl | old, rfl⟩
    · exact .inl rfl
    · exact .inr ⟨pair, old, rfl⟩
  · rintro (rfl | ⟨pair, old, rfl⟩)
    · exact ⟨_, .inl rfl, rfl⟩
    · exact ⟨pair, .inr old, rfl⟩

theorem nodup_insert {m : Members α} (single : m.keys.Nodup) (key : String) (value : α) :
    (keys (m.insert key value)).Nodup := by
  unfold insert
  split
  · rw [keys_replace]
    exact single
  · rename_i absent
    have new : key ∉ m.keys := fun member => absent ((get?_isSome_iff key m).mpr member)
    clear absent
    induction m with
    | nil => exact List.nodup_singleton key
    | cons pair rest ih =>
      obtain ⟨k, v⟩ := pair
      simp only [keys, List.map_cons, List.nodup_cons, List.mem_cons, not_or] at single new ih ⊢
      simp only [insertNew]
      split
      · simp only [List.map_cons, List.nodup_cons, List.mem_cons, not_or]
        exact ⟨new, single⟩
      · simp only [List.map_cons, List.nodup_cons]
        refine ⟨fun member => ?_, ih single.2 new.2⟩
        rcases (mem_keys_insertNew key k value rest).mp member with same | old
        · exact new.1 same.symm
        · exact single.1 old

theorem mem_insert_cases {key : String} {value : α} {m : Members α} {pair : String × α}
    (member : pair ∈ m.insert key value) : pair = (key, value) ∨ pair ∈ m := by
  unfold insert at member
  split at member
  · rename_i known
    clear known
    induction m with
    | nil => cases member
    | cons first rest ih =>
      obtain ⟨k, v⟩ := first
      simp only [replace] at member
      split at member
      · rename_i same
        rcases List.mem_cons.mp member with rfl | later
        · exact .inl (by rw [same])
        · exact .inr (List.mem_cons_of_mem _ later)
      · rcases List.mem_cons.mp member with rfl | later
        · exact .inr List.mem_cons_self
        · exact (ih later).imp_right (List.mem_cons_of_mem _)
  · exact (mem_insertNew key value m pair).mp member

theorem mem_keys_insert (key asked : String) (value : α) (m : Members α) :
    asked ∈ keys (m.insert key value) ↔ asked = key ∨ asked ∈ m.keys := by
  unfold insert
  split
  · rename_i known
    rw [keys_replace]
    constructor
    · exact .inr
    · rintro (rfl | old)
      · exact (get?_isSome_iff _ m).mp known
      · exact old
  · exact mem_keys_insertNew key asked value m

theorem mem_ofList (pairs : List (String × α)) :
    (∀ pair ∈ ofList pairs, pair ∈ pairs) ∧
      ∀ key, key ∈ keys (ofList pairs) ↔ key ∈ keys pairs := by
  have grown : ∀ (pairs : List (String × α)) (m : Members α),
      (∀ pair ∈ pairs.foldl (fun m (k, v) => insert k v m) m, pair ∈ m ∨ pair ∈ pairs) ∧
        ∀ key, key ∈ keys (pairs.foldl (fun m (k, v) => insert k v m) m) ↔
          key ∈ m.keys ∨ key ∈ keys pairs := by
    intro pairs
    induction pairs with
    | nil => exact fun m => ⟨fun _ => .inl, fun key => by simp [keys]⟩
    | cons first rest ih =>
      intro m
      obtain ⟨values, named⟩ := ih (m.insert first.1 first.2)
      refine ⟨fun pair member => ?_, fun key => ?_⟩
      · rcases values pair member with new | later
        · rcases mem_insert_cases new with same | old
          · exact .inr (same ▸ List.mem_cons_self)
          · exact .inl old
        · exact .inr (List.mem_cons_of_mem _ later)
      · rw [List.foldl_cons, named, mem_keys_insert]
        simp only [keys, List.map_cons, List.mem_cons]
        tauto
  obtain ⟨values, named⟩ := grown pairs []
  exact ⟨fun pair member => (values pair member).resolve_left List.not_mem_nil,
    fun key => (named key).trans (or_iff_right List.not_mem_nil)⟩

theorem nodup_ofList (pairs : List (String × α)) : (keys (ofList pairs)).Nodup := by
  have grown : ∀ (pairs : List (String × α)) (m : Members α), m.keys.Nodup →
      (keys (pairs.foldl (fun m (k, v) => insert k v m) m)).Nodup := by
    intro pairs
    induction pairs with
    | nil => exact fun _ single => single
    | cons pair rest ih => exact fun m single => ih _ (nodup_insert single _ _)
  exact grown pairs [] List.nodup_nil

theorem get?_of_mem {m : Members α} (single : m.keys.Nodup) {key : String} {value : α}
    (member : (key, value) ∈ m) : m.get? key = some value := by
  induction m with
  | nil => cases member
  | cons pair rest ih =>
    obtain ⟨k, v⟩ := pair
    simp only [keys, List.map_cons, List.nodup_cons] at single ih
    simp only [get?]
    rcases List.mem_cons.mp member with same | later
    · cases same
      exact if_pos rfl
    · have other : k ≠ key := fun same => single.1 (same ▸ List.mem_map_of_mem later)
      rw [if_neg other]
      exact ih single.2 later

theorem replace_eq_mapValues {m : Members α} (single : m.keys.Nodup) (key : String) (value : α) :
    m.replace key value = mapValues (fun k v => if k = key then value else v) m := by
  induction m with
  | nil => rfl
  | cons pair rest ih =>
    obtain ⟨k, v⟩ := pair
    simp only [keys, List.map_cons, List.nodup_cons] at single ih
    simp only [replace, mapValues, List.map_cons] at ih ⊢
    split
    · rename_i same
      subst same
      have still : ∀ pair ∈ rest, (pair.1, if pair.1 = k then value else pair.2) = pair := by
        intro pair member
        have other : pair.1 ≠ k := fun same => single.1 (same ▸ List.mem_map_of_mem member)
        rw [if_neg other]
      rw [List.map_congr_left still, List.map_id']
    · rw [ih single.2]

theorem mapValues_mapValues {β γ : Type} (g : String → β → γ) (f : String → α → β) (m : Members α) :
    mapValues g (mapValues f m) = mapValues (fun key value => g key (f key value)) m :=
  List.map_map

theorem keys_mapValues {β : Type} (f : String → α → β) (m : Members α) :
    keys (mapValues f m) = m.keys := List.map_map

end SealedColumns.Members
