import SealedColumns.Proofs.Outcome
import SealedColumns.Proofs.Store.Mirror
import SealedColumns.Rows

/-!
Rows that a sealed request gives out, decrypted, are the rows that the plain request gives out with
the sensitive cells as texts.
-/
namespace SealedColumns.Store

def asText (value : Json) : Json :=
  match value.plain? with
  | some (some text) => .string text
  | _ => value

def changeAt (keys : List String) (change : Json → Json) (m : Members Json) : Members Json :=
  Members.mapValues (fun key value => if key ∈ keys then change value else value) m

/-- A row that is given out, with the cells under some names as texts. -/
def textsAt (names : List String) : Json → Json
  | .object m => .object (changeAt names asText m)
  | value => value

/-- The names under which sensitive columns are given out. -/
def sensitiveOutputs (columns : List SensitiveColumn) (items : List Item) : List String :=
  (items.filter fun item => (sensitive? columns item.column).isSome).map Item.output

/-- What decryption makes of a value. -/
def reveal (handler : Handler) : Json → Json
  | .string cipher =>
    match handler.decrypt cipher with
    | .ok plain => .string plain
    | .error _ => .string cipher
  | value => value

/-! Decryption of one row. -/

section Decryption

variable {handler : Handler} {camelCase : Bool}

/-- A cell that can be decrypted: null, or a ciphertext. -/
def Revealable (handler : Handler) (value : Json) : Prop :=
  value = .null ∨ ∃ cipher plain, value = .string cipher ∧ handler.decrypt cipher = .ok plain

theorem isPath_plain {property : String} (plain : Plain property) :
    Rows.isPath property = false := by
  unfold Rows.isPath
  rw [List.any_eq_false]
  intro c member
  have range := isPlainChar_range (plain c member)
  have point : c ≠ '.' := by
    rintro rfl
    revert range
    decide
  have bracket : c ≠ '[' := by
    rintro rfl
    revert range
    decide
  simp [point, bracket]

theorem decryptCell_value {m : Members Json} (single : m.keys.Nodup) {property : String}
    (plain : Plain property) {value : Json} (found : m.get? property = some value)
    (revealable : Revealable handler value) :
    (Rows.decryptCell handler camelCase (.object m) property).value =
      .object (changeAt [property] (reveal handler) m) := by
  have key : Rows.keyOf? camelCase property m = some property := by
    simp [Rows.keyOf?, Members.contains, found]
  have cell : Rows.cell? camelCase property (.object m) = some value := by
    simp [Rows.cell?, isPath_plain plain, key, found]
  have changed : m.replace property (reveal handler value) =
      changeAt [property] (reveal handler) m := by
    rw [Members.replace_eq_mapValues single]
    refine List.map_congr_left fun pair member => ?_
    obtain ⟨k, v⟩ := pair
    by_cases here : k = property
    · subst here
      have same := (Members.get?_of_mem single member).symm.trans found
      simp [Option.some.inj same]
    · simp [here]
  rcases revealable with rfl | ⟨cipher, text, rfl, decrypted⟩
  · have still : changeAt [property] (reveal handler) m = m := by
      rw [← changed]
      exact Members.replace_same found
    simp only [Rows.decryptCell, cell, Option.bind_some, Rows.cipherText?, still]
  · have revealed : reveal handler (.string cipher) = .string text := by
      simp only [reveal, decrypted]
    rw [revealed] at changed
    simp only [Rows.decryptCell, cell, Option.bind_some, Rows.cipherText?, decrypted, Rows.setCell,
      isPath_plain plain, Bool.false_eq_true, if_false, key, changed]

theorem decryptRow_value {properties : List String} (distinct : properties.Nodup)
    (plain : ∀ property ∈ properties, Plain property) {m : Members Json} (single : m.keys.Nodup)
    (revealable : ∀ property ∈ properties, ∃ value, m.get? property = some value ∧
      Revealable handler value) :
    (Rows.decryptRow handler camelCase properties (.object m)).value =
      .object (changeAt properties (reveal handler) m) := by
  induction properties generalizing m with
  | nil =>
    have still : changeAt [] (reveal handler) m = m := by
      simp [changeAt, Members.mapValues]
    rw [still]
    rfl
  | cons property rest ih =>
    obtain ⟨value, found, here⟩ := revealable property List.mem_cons_self
    have known := plain property List.mem_cons_self
    rw [List.nodup_cons] at distinct
    simp only [Rows.decryptRow, decryptCell_value single known found here]
    rw [ih distinct.2 (fun p later => plain p (List.mem_cons_of_mem _ later))]
    · rw [changeAt, changeAt, Members.mapValues_mapValues, changeAt]
      congr 2
      funext key value
      by_cases same : key = property
      · simp [same, distinct.1]
      · simp [same]
    · rw [changeAt, Members.keys_mapValues]
      exact single
    · intro p later
      obtain ⟨value, found, here⟩ := revealable p (List.mem_cons_of_mem _ later)
      have other : p ≠ property := fun same => distinct.1 (same ▸ later)
      refine ⟨value, ?_, here⟩
      rw [changeAt, Members.get?_mapValues, found]
      simp [other]

end Decryption

/-! Decryption of the rows of a request. -/

section Requests

variable {handler : Handler} {used : String → Prop} {name : String}
  {columns : List SensitiveColumn} {items : List Item} {row sealedRow : Row}

/-- Items of plain columns that have names of their own. -/
structure Selectable (columns : List SensitiveColumn) (items : List Item) : Prop where
  columns : ∀ item ∈ items, Plain item.column ∧ ¬ Derived columns item.column
  outputs : ∀ item ∈ items, Plain item.output
  distinct : (items.map Item.output).Nodup

theorem output_sealItem (item : Item) : (sealItem columns item).output = item.output := by
  unfold sealItem
  split <;> rfl

theorem mem_sensitiveOutputs (selectable : Selectable columns items) {item : Item}
    (member : item ∈ items) : item.output ∈ sensitiveOutputs columns items ↔
      (sensitive? columns item.column).isSome = true := by
  rw [sensitiveOutputs, List.mem_map]
  constructor
  · rintro ⟨other, found, same⟩
    rw [List.mem_filter] at found
    have unique := List.inj_on_of_nodup_map selectable.distinct found.1 member same
    exact unique ▸ found.2
  · intro sensitive
    exact ⟨item, List.mem_filter.mpr ⟨member, sensitive⟩, rfl⟩

/-- A sealed cell can be decrypted, to the text of the plain cell. -/
theorem Covers.revealed {plain : Option String} {cell target index : Json}
    (read : cell.plain? = some plain) (covers : Covers handler used plain target index) :
    Revealable handler target ∧ reveal handler target = asText cell := by
  cases covers with
  | null =>
    have null : cell = .null := by
      cases cell <;> simp [Json.plain?] at read ⊢
    subst null
    exact ⟨.inl rfl, rfl⟩
  | @text plain cipher key _ decrypted _ =>
    refine ⟨.inr ⟨cipher, plain, rfl, decrypted⟩, ?_⟩
    simp only [reveal, decrypted, asText, read]

/-- What an item gives out of the sealed row, decrypted, is what it gives out of the plain row as
text, if it is sensitive. -/
theorem Mirrors.item (mirrors : Mirrors handler used columns row sealedRow)
    (selectable : Selectable columns items) {item : Item} (member : item ∈ items) :
    (if item.output ∈ sensitiveOutputs columns items then
        reveal handler (cellOf sealedRow (sealItem columns item).column)
      else cellOf sealedRow (sealItem columns item).column) =
      if item.output ∈ sensitiveOutputs columns items then asText (cellOf row item.column)
      else cellOf row item.column := by
  have sensitive := mem_sensitiveOutputs selectable member
  cases known : sensitive? columns item.column with
  | none =>
    rw [known, Option.isSome_none] at sensitive
    have kept : Kept columns item.column := ⟨known, (selectable.columns item member).2⟩
    have other := sensitive.not.mpr Bool.false_ne_true
    rw [if_neg other, if_neg other, sealItem, known]
    exact mirrors.kept _ kept
  | some c =>
    rw [known, Option.isSome_some] at sensitive
    obtain ⟨inside, source⟩ := sensitive?_some known
    obtain ⟨plain, read, covers⟩ := mirrors.covered c inside
    rw [source] at read
    rw [if_pos (sensitive.mpr rfl), if_pos (sensitive.mpr rfl), sealItem, known]
    exact (covers.revealed read).2

/-- Under each name that a sensitive column is given out under stands a cell that can be
decrypted. -/
theorem Mirrors.revealable (mirrors : Mirrors handler used columns row sealedRow)
    (selectable : Selectable columns items) {property : String}
    (sensitive : property ∈ sensitiveOutputs columns items) :
    ∃ value, Members.get? property (Members.ofList
        (items.map fun item => (item.output, cellOf sealedRow (sealItem columns item).column))) =
        some value ∧ Revealable handler value := by
  obtain ⟨values, keys⟩ := Members.mem_ofList
    (items.map fun item => (item.output, cellOf sealedRow (sealItem columns item).column))
  obtain ⟨item, listed, rfl⟩ := List.mem_map.mp sensitive
  have given := List.mem_map_of_mem (f := fun item =>
    (item.output, cellOf sealedRow (sealItem columns item).column)) (List.mem_filter.mp listed).1
  have present := (keys item.output).mpr (List.mem_map_of_mem given)
  obtain ⟨value, found⟩ := Option.isSome_iff_exists.mp ((Members.get?_isSome_iff _ _).mpr present)
  refine ⟨value, found, ?_⟩
  -- The cell found may be another item's, since all that is known of it is the name.
  obtain ⟨other, inside, same⟩ := List.mem_map.mp (values _ (Members.mem_of_get? found))
  rw [Prod.mk.injEq] at same
  obtain ⟨named, rfl⟩ := same
  obtain ⟨c, known⟩ := Option.isSome_iff_exists.mp
    ((mem_sensitiveOutputs selectable inside).mp (named ▸ sensitive))
  obtain ⟨plain, read, covers⟩ := mirrors.covered c (sensitive?_some known).1
  rw [sealItem, known]
  exact (covers.revealed read).1

theorem Mirrors.decryptRow (mirrors : Mirrors handler used columns row sealedRow)
    (selectable : Selectable columns items) {properties : List String}
    (distinct : properties.Nodup)
    (listed : ∀ property, property ∈ properties ↔ property ∈ sensitiveOutputs columns items)
    (camelCase : Bool) :
    (Rows.decryptRow handler camelCase properties
        (project (items.map (sealItem columns)) sealedRow)).value =
      textsAt (sensitiveOutputs columns items) (project items row) := by
  have pairs : (items.map (sealItem columns)).map
      (fun item => (item.output, cellOf sealedRow item.column)) =
        items.map fun item => (item.output, cellOf sealedRow (sealItem columns item).column) := by
    rw [List.map_map]
    exact List.map_congr_left fun item _ => by simp only [Function.comp_apply, output_sealItem]
  have item : ∀ property ∈ properties, ∃ item ∈ items, item.output = property := by
    intro property member
    obtain ⟨item, found, same⟩ := List.mem_map.mp ((listed property).mp member)
    exact ⟨item, (List.mem_filter.mp found).1, same⟩
  rw [project, pairs, decryptRow_value distinct]
  · simp only [project, textsAt, changeAt, ← Members.ofList_mapValues, listed]
    rw [Members.mapValues, Members.mapValues, List.map_map, List.map_map]
    congr 2
    exact List.map_congr_left fun item member =>
      congrArg (Prod.mk item.output) (mirrors.item selectable member)
  · intro property member
    obtain ⟨item, inside, rfl⟩ := item property member
    exact selectable.outputs item inside
  · exact Members.nodup_ofList _
  · exact fun property member => mirrors.revealable selectable ((listed property).mp member)

theorem decryptRows_mirrors {rows sealedRows : List Row}
    (mirrors : List.Forall₂ (Mirrors handler used columns) rows sealedRows)
    (selectable : Selectable columns items) {properties : List String}
    (distinct : properties.Nodup)
    (listed : ∀ property, property ∈ properties ↔ property ∈ sensitiveOutputs columns items)
    (camelCase : Bool) :
    (Rows.decryptRows handler camelCase properties
        (sealedRows.map (project (items.map (sealItem columns))))).value =
      (rows.map (project items)).map (textsAt (sensitiveOutputs columns items)) := by
  induction mirrors with
  | nil => rfl
  | cons here _ ih =>
    simp only [List.map_cons, Rows.decryptRows, ih,
      here.decryptRow selectable distinct listed camelCase]

theorem nodup_distinct {α : Type} [BEq α] [LawfulBEq α] (l : List α) :
    (SealedColumns.distinct l).Nodup := by
  induction l with
  | nil => exact List.nodup_nil
  | cons a l ih =>
    rw [SealedColumns.distinct, List.nodup_cons]
    refine ⟨fun member => ?_, ih.filter _⟩
    have other := (List.mem_filter.mp member).2
    simp at other

theorem propertiesOf_spec (aliases : Members String) :
    (Rows.propertiesOf aliases).Nodup ∧
      ∀ property, property ∈ Rows.propertiesOf aliases ↔ property ∈ aliases.values := by
  refine ⟨?_, fun property => ?_⟩
  · exact (List.mergeSort_perm _ _).nodup_iff.mpr (nodup_distinct _)
  · rw [Rows.propertiesOf, List.mem_mergeSort, mem_distinct]

end Requests

end SealedColumns.Store
