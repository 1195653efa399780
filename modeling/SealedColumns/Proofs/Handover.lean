import SealedColumns.Interceptor
import SealedColumns.Proofs.Turns

/-!
Which cells of a row are handed to decryption. The properties are gone through one after the other,
and each may change a cell; but no cell is lost and none becomes null, so that the cell of a
property is still there when its turn comes.
-/
namespace SealedColumns

theorem Text.asciiLower_asciiLower (s : String) : asciiLower (asciiLower s) = asciiLower s := by
  have twice : ∀ c : Char, c.toLower.toLower = c.toLower := by
    intro c
    rcases toLower_eq_self_or c with same | ⟨-, small⟩
    · rw [same, same]
    · rcases toLower_eq_self_or c.toLower with same | ⟨upper, -⟩
      · exact same
      · omega
  simp only [asciiLower, String.toList_ofList, List.map_map, Function.comp_def, twice]

namespace Rows

/-- The cells of a row after some of them have changed. -/
structure Kept (row row' : Members Json) : Prop where
  keys : row'.keys = row.keys
  cells : ∀ key value, row.get? key = some value → value ≠ .null →
    ∃ value', row'.get? key = some value' ∧ value' ≠ .null

variable {handler : Handler} {camelCase : Bool}

theorem decryptCell_kept (property : String) (row : Members Json) :
    ∃ row', (decryptCell handler camelCase (.object row) property).value = .object row' ∧
      Kept row row' := by
  have turn := decryptCell_decrypted handler camelCase (.object row) property
  obtain ⟨row', same, keys⟩ := Json.object_of_outline turn.outline
  refine ⟨row', same, keys, fun key value found present => ?_⟩
  have filled : Filled (.object row) [.key key] :=
    ⟨value, (Property.getAt?_key row key).trans found, present⟩
  -- above the cell there is only the row, which is the cell of no property
  have after : Filled (.object row') [.key key] := by
    rw [← same]
    apply turn.filled filled
    intro place resolves above
    have short := above.length_le
    have inside := List.length_pos_iff.mpr (place?_ne_nil resolves.1)
    exact above.eq_of_length (Nat.le_antisymm short inside)
  obtain ⟨value', found', present'⟩ := after
  exact ⟨value', (Property.getAt?_key row' key).symm.trans found', present'⟩

/-- While the properties are gone through, the cell under the key is handed to decryption. -/
inductive HandsOver (handler : Handler) (camelCase : Bool) (key : String) :
    List String → Json → Prop where
  | here {property text : String} {rest : List String} {row : Members Json} :
      isPath property = false → keyOf? camelCase property row = some key →
      (cell? camelCase property (.object row)).bind cipherText? = some text →
        HandsOver handler camelCase key (property :: rest) (.object row)
  | later {property : String} {rest : List String} {row : Json} :
      HandsOver handler camelCase key rest (decryptCell handler camelCase row property).value →
        HandsOver handler camelCase key (property :: rest) row

/-- The report counts what is handed over. -/
theorem HandsOver.counted {key : String} {properties : List String} {row : Json}
    (hands : HandsOver handler camelCase key properties row) :
    0 < (decryptRow handler camelCase properties row).report.decrypted +
      (decryptRow handler camelCase properties row).report.failed := by
  induction hands with
  | @here property text rest row _ _ cipher =>
    have counted : 0 < (decryptCell handler camelCase (.object row) property).report.decrypted +
        (decryptCell handler camelCase (.object row) property).report.failed := by
      simp only [decryptCell, cipher]
      cases handler.decrypt text <;> exact Nat.one_pos
    simp only [decryptRow, DecryptReport.add]
    omega
  | later _ ih =>
    simp only [decryptRow, DecryptReport.add]
    omega

/-- A cell that is not null, with no other key that holds the property. -/
structure Cell (camelCase : Bool) (property key : String) (row : Members Json) : Prop where
  value : ∃ value, row.get? key = some value ∧ value ≠ .null
  alone : ∀ k ∈ row.keys, holds camelCase property k = true → k = key

theorem Cell.keep {property key : String} {row row' : Members Json}
    (cell : Cell camelCase property key row) (kept : Kept row row') :
    Cell camelCase property key row' := by
  obtain ⟨value, found, present⟩ := cell.value
  exact ⟨kept.cells key value found present, kept.keys ▸ cell.alone⟩

theorem Cell.keyOf? {property key : String} {row : Members Json}
    (cell : Cell camelCase property key row) (held : holds camelCase property key = true) :
    Rows.keyOf? camelCase property row = some key := by
  obtain ⟨value, found, -⟩ := cell.value
  have listed : key ∈ row.keys := (Members.get?_isSome_iff key row).mp (by rw [found]; rfl)
  unfold Rows.keyOf?
  split
  · rename_i known
    have own : property ∈ row.keys := (Members.get?_isSome_iff property row).mp known
    rw [cell.alone property own (by simp [Rows.holds, Text.equalIgnoringCase])]
  · cases found : row.keys.find? (Rows.holds camelCase property) with
    | none => exact absurd held (List.find?_eq_none.mp found key listed)
    | some other =>
      rw [cell.alone other (List.mem_of_find?_eq_some found) (List.find?_some found)]

/-- The cell of a property in the list is handed over, whatever the others do before. -/
theorem Cell.handsOver {property key : String} {row : Members Json} {properties : List String}
    (cell : Cell camelCase property key row) (held : holds camelCase property key = true)
    (plain : isPath property = false) (listed : property ∈ properties) :
    HandsOver handler camelCase key properties (.object row) := by
  induction properties generalizing row with
  | nil => cases listed
  | cons first rest ih =>
    rcases List.mem_cons.mp listed with rfl | later
    · obtain ⟨value, found, present⟩ := cell.value
      obtain ⟨text, cipher⟩ := exists_cipherText? present
      refine .here plain (cell.keyOf? held) (?_ : _ = some text)
      simp only [cell?, plain, Bool.false_eq_true, if_false, cell.keyOf? held, Option.bind_some,
        found, cipher]
    · obtain ⟨row', same, kept⟩ := @decryptCell_kept handler camelCase first row
      refine .later ?_
      rw [same]
      exact ih (cell.keep kept) later

end Rows

/-- The cell of a row that `fetch` hands to decryption. -/
def Interceptor.HandsOver (i : Interceptor) (invocation : Invocation) (key : String)
    (row : Members Json) : Prop :=
  ∃ handler, i.handler = some handler ∧
    Rows.HandsOver handler i.camelCase key (Rows.propertiesOf invocation.aliases) (.object row)

end SealedColumns
