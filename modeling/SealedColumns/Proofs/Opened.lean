import SealedColumns.Proofs.Decryption
import SealedColumns.Proofs.Whole

/-!
How often a cell is handed to decryption: once for each property that has it, however many aliases
are recorded for the property. A cell is handed over once if one property has it, and then with the
text that it holds in the row at the start; but two spellings of its key are two properties.
-/
namespace SealedColumns.Rows

open Property

/-- The cells that turns hand to decryption, in order. -/
def callsOf (camelCase : Bool) (turns : List Turn) : List Call :=
  turns.filterMap fun turn => call? camelCase turn.property turn.row

def calls (handler : Handler) (camelCase : Bool) (properties : List String) (row : Json) :
    List Call :=
  callsOf camelCase (turns handler camelCase properties row)

variable {handler other : Handler} {camelCase : Bool} {properties rest : List String}
  {property : String} {row : Json} {turns : List Turn} {outcome first : Outcome Json}

theorem callsOf_cons (camelCase : Bool) (turn : Turn) (turns : List Turn) :
    callsOf camelCase (turn :: turns) =
      (call? camelCase turn.property turn.row).toList ++ callsOf camelCase turns := by
  rw [callsOf, List.filterMap_cons]
  cases call? camelCase turn.property turn.row <;> rfl

theorem length_callsOf (camelCase : Bool) (turns : List Turn) :
    (callsOf camelCase turns).length = turns.countP (Turn.opens camelCase) := by
  rw [callsOf, List.length_filterMap_eq_countP]
  exact List.countP_congr fun turn _ => by rw [Turn.opens_eq]

/-- A cell that is handed over is one that a property has in the row at the start. -/
theorem RowPasses.resolves (passes : RowPasses handler camelCase properties row turns outcome)
    {call : Call} (made : call ∈ callsOf camelCase turns) :
    ∃ property ∈ properties, Resolves camelCase row property call.place := by
  induction passes with
  | done => cases made
  | @turn property rest row turns first others step _ ih =>
    rw [callsOf_cons, List.mem_append] at made
    rcases made with here | later
    · exact ⟨property, List.mem_cons_self, resolves_of_call? (Option.mem_toList.mp here)⟩
    · obtain ⟨asked, listed, resolves⟩ := ih later
      exact ⟨asked, List.mem_cons_of_mem _ listed, step.resolves resolves⟩

/-- The properties that have the cell, whatever stands there. -/
def having (camelCase : Bool) (properties : List String) (row : Json) (cell : Place) :
    List String :=
  properties.filter fun property => decide (place? camelCase property row = some cell)

theorem having_cons (camelCase : Bool) (property : String) (rest : List String) (row : Json)
    (cell : Place) : (having camelCase (property :: rest) row cell).length =
      (if place? camelCase property row = some cell then 1 else 0) +
        (having camelCase rest row cell).length := by
  rw [having, List.filter_cons]
  split
  · rename_i here
    rw [if_pos (of_decide_eq_true here), List.length_cons, Nat.add_comm]
    rfl
  · rename_i other
    rw [if_neg fun here => other (decide_eq_true here), Nat.zero_add]
    rfl

theorem CellDecrypted.having (step : CellDecrypted handler camelCase row property first)
    (properties : List String) (cell : Place) :
    Rows.having camelCase properties first.value cell =
      Rows.having camelCase properties row cell := by
  simp only [Rows.having, place?_congr step.outline]

theorem count_call?_le (camelCase : Bool) (property : String) (row : Json) (cell : Place) :
    ((call? camelCase property row).toList.map Call.place).count cell ≤
      if place? camelCase property row = some cell then 1 else 0 := by
  cases made : call? camelCase property row with
  | none => exact Nat.zero_le _
  | some call =>
    obtain ⟨named, -⟩ := call?_eq_some.mp made
    by_cases here : call.place = cell
    · subst here
      simp [named]
    · simp [here]

theorem count_call?_eq {cell : Place} (filled : Filled row cell) :
    ((call? camelCase property row).toList.map Call.place).count cell =
      if place? camelCase property row = some cell then 1 else 0 := by
  split
  · rename_i named
    obtain ⟨text, made⟩ := exists_call? ⟨named, filled⟩
    simp [made]
  · rename_i other
    have bound := count_call?_le camelCase property row cell
    rw [if_neg other] at bound
    exact Nat.le_zero.mp bound

theorem RowPasses.count_le (passes : RowPasses handler camelCase properties row turns outcome)
    (cell : Place) : ((callsOf camelCase turns).map Call.place).count cell ≤
      (having camelCase properties row cell).length := by
  induction passes with
  | done => exact Nat.le_refl _
  | @turn property rest row turns first others step _ ih =>
    rw [step.having] at ih
    rw [callsOf_cons, List.map_append, List.count_append, having_cons]
    exact Nat.add_le_add (count_call?_le camelCase property row cell) ih

/-- A cell that is not null, and not inside of another one that is handed over, is handed over once
for each property that has it. -/
theorem RowPasses.count_eq (passes : RowPasses handler camelCase properties row turns outcome)
    {cell : Place} (filled : Filled row cell) (outermost : ∀ property ∈ properties, ∀ place,
      Resolves camelCase row property place → place <+: cell → place = cell) :
    ((callsOf camelCase turns).map Call.place).count cell =
      (having camelCase properties row cell).length := by
  induction passes with
  | done => rfl
  | @turn property rest row turns first others step _ ih =>
    have later := ih (step.filled filled (outermost property List.mem_cons_self))
      fun asked listed place resolves =>
        outermost asked (List.mem_cons_of_mem _ listed) place (step.resolves resolves)
    rw [step.having] at later
    rw [callsOf_cons, List.map_append, List.count_append, having_cons, count_call?_eq filled,
      later]

/-- Cells that one property has each are handed over once. -/
theorem RowPasses.nodup (passes : RowPasses handler camelCase properties row turns outcome)
    (single : properties.Nodup) (apart : ∀ p ∈ properties, ∀ p' ∈ properties, ∀ place,
      Resolves camelCase row p place → Resolves camelCase row p' place → p = p') :
    ((callsOf camelCase turns).map Call.place).Nodup := by
  induction passes with
  | done => exact List.nodup_nil
  | @turn property rest row turns first others step passes ih =>
    obtain ⟨new, single⟩ := List.nodup_cons.mp single
    have later := ih single fun p listed p' listed' place resolves resolves' =>
      apart p (List.mem_cons_of_mem _ listed) p' (List.mem_cons_of_mem _ listed') place
        (step.resolves resolves) (step.resolves resolves')
    rw [callsOf_cons, List.map_append]
    cases made : call? camelCase property row with
    | none => exact later
    | some call =>
      refine List.nodup_cons.mpr ⟨fun again => ?_, later⟩
      obtain ⟨call', made', same⟩ := List.mem_map.mp again
      obtain ⟨asked, listed, resolves⟩ := passes.resolves made'
      have equal := apart property List.mem_cons_self asked (List.mem_cons_of_mem _ listed)
        call.place (resolves_of_call? made) (same ▸ step.resolves resolves)
      exact new (equal ▸ listed)

theorem CellDecrypted.call? {asked : String}
    (step : CellDecrypted handler camelCase row property first)
    (apart : ∀ place place', Resolves camelCase row property place →
      Resolves camelCase row asked place' → ¬ place <+: place' ∧ ¬ place' <+: place) :
    Rows.call? camelCase asked first.value = Rows.call? camelCase asked row := by
  cases made : Rows.call? camelCase asked row with
  | none =>
    exact call?_eq_none.mpr fun place resolves =>
      call?_eq_none.mp made place (step.resolves resolves)
  | some call =>
    obtain ⟨named, value, found, read⟩ := call?_eq_some.mp made
    have kept := step.apart fun place resolves => apart place _ resolves (resolves_of_call? made)
    exact call?_eq_some.mpr
      ⟨(place?_congr step.outline).trans named, value, kept.trans found, read⟩

/-- Where no cell of a property lies in a cell of another one, each is handed over with the text
that it holds in the row at the start. -/
theorem RowPasses.calls_eq (passes : RowPasses handler camelCase properties row turns outcome)
    (single : properties.Nodup) (apart : ∀ p ∈ properties, ∀ p' ∈ properties, ∀ place place',
      Resolves camelCase row p place → Resolves camelCase row p' place' → place <+: place' →
        p = p') :
    callsOf camelCase turns = properties.filterMap fun property =>
      call? camelCase property row := by
  induction passes with
  | done => rfl
  | @turn property rest row turns first others step _ ih =>
    obtain ⟨new, single⟩ := List.nodup_cons.mp single
    have later := ih single fun p listed p' listed' place place' resolves resolves' =>
      apart p (List.mem_cons_of_mem _ listed) p' (List.mem_cons_of_mem _ listed') place place'
        (step.resolves resolves) (step.resolves resolves')
    have kept : rest.filterMap (call? camelCase · first.value) =
        rest.filterMap (call? camelCase · row) := by
      refine List.filterMap_congr fun asked listed => step.call? ?_
      intro place place' resolves resolves'
      have listed' := List.mem_cons_of_mem property listed
      refine ⟨fun inside => new ?_, fun inside => new ?_⟩
      · exact apart property List.mem_cons_self asked listed' _ _ resolves resolves' inside ▸ listed
      · exact apart asked listed' property List.mem_cons_self _ _ resolves' resolves inside ▸ listed
    rw [callsOf_cons, later, kept, List.filterMap_cons]
    cases call? camelCase property row <;> rfl

theorem decryptCell_congr (agree : ∀ call, call? camelCase property row = some call →
      other.decrypt call.text = handler.decrypt call.text) :
    decryptCell other camelCase row property = decryptCell handler camelCase row property := by
  unfold decryptCell
  rw [cell?_bind_cipherText?]
  cases made : call? camelCase property row with
  | none => rfl
  | some call => simp only [Option.map_some, agree call made]

/-- Nothing but what is handed over is asked of the handler. -/
theorem decryptRow_congr (agree : ∀ call ∈ calls handler camelCase properties row,
      other.decrypt call.text = handler.decrypt call.text) :
    decryptRow other camelCase properties row = decryptRow handler camelCase properties row := by
  induction properties generalizing row with
  | nil => rfl
  | cons property rest ih =>
    rw [calls, Rows.turns, callsOf_cons] at agree
    have here : decryptCell other camelCase row property =
        decryptCell handler camelCase row property := by
      apply decryptCell_congr
      intro call made
      exact agree call (List.mem_append_left _ (Option.mem_toList.mpr made))
    have later := ih fun call made => agree call (List.mem_append_right _ made)
    rw [decryptRow, decryptRow, here, later]

/-- How the cells of a row are handed to decryption. -/
structure OpenedByProperty (handler : Handler) (camelCase : Bool) (properties : List String)
    (row : Json) : Prop where
  asked : ∀ other : Handler, (∀ call ∈ calls handler camelCase properties row,
      other.decrypt call.text = handler.decrypt call.text) →
    decryptRow other camelCase properties row = decryptRow handler camelCase properties row
  bounded : ∀ cell, ((calls handler camelCase properties row).map Call.place).count cell ≤
    (having camelCase properties row cell).length
  repeated : ∀ cell, Filled row cell → (∀ property ∈ properties, ∀ place,
      Resolves camelCase row property place → place <+: cell → place = cell) →
    ((calls handler camelCase properties row).map Call.place).count cell =
      (having camelCase properties row cell).length
  once : (∀ p ∈ properties, ∀ p' ∈ properties, ∀ place, Resolves camelCase row p place →
      Resolves camelCase row p' place → p = p') →
    ((calls handler camelCase properties row).map Call.place).Nodup
  original : (∀ p ∈ properties, ∀ p' ∈ properties, ∀ place place',
      Resolves camelCase row p place → Resolves camelCase row p' place' → place <+: place' →
        p = p') →
    calls handler camelCase properties row =
      properties.filterMap fun property => call? camelCase property row

theorem openedByProperty (handler : Handler) (camelCase : Bool) {properties : List String}
    (single : properties.Nodup) (row : Json) :
    OpenedByProperty handler camelCase properties row := by
  have passes := decryptRow_passes handler camelCase properties row
  exact ⟨fun _ => decryptRow_congr, passes.count_le, fun _ => passes.count_eq,
    passes.nodup single, passes.calls_eq single⟩

theorem totalReport_calls (handler : Handler) (camelCase : Bool) (properties : List String)
    (rows : List Json) :
    let report := totalReport (rows.map fun row =>
      (decryptRow handler camelCase properties row).report)
    report.decrypted + report.failed =
      (rows.flatMap (calls handler camelCase properties)).length := by
  induction rows with
  | nil => rfl
  | cons row rows ih =>
    have here := (decryptRow_passes handler camelCase properties row).counted.1
    simp only [totalReport, List.map_cons, List.foldr_cons, DecryptReport.add] at ih ⊢
    rw [List.flatMap_cons, List.length_append, calls, length_callsOf]
    omega

/-- A fetch hands each cell of a row over once for each recorded property that has it, not once for
each alias: at most once where the properties have different cells, and where none of these lies in
another one, with the text that the cell was fetched with. -/
theorem cells_opened_by_property (handler : Handler) (camelCase : Bool)
    (aliases : Members String) :
    (propertiesOf aliases).Nodup ∧
    (∀ property, property ∈ propertiesOf aliases ↔ property ∈ aliases.values) ∧
    (∀ row, OpenedByProperty handler camelCase (propertiesOf aliases) row) ∧
    ∀ rows, let report := (decrypt handler camelCase aliases (.rows rows)).report
      report.decrypted + report.failed =
        (rows.flatMap (calls handler camelCase (propertiesOf aliases))).length := by
  obtain ⟨single, listed⟩ := Store.propertiesOf_spec aliases
  refine ⟨single, listed, openedByProperty handler camelCase single, fun rows => ?_⟩
  have total := totalReport_calls handler camelCase (propertiesOf aliases) rows
  rwa [← decryptRows_report] at total

end Rows

namespace Sample

/-- Two spellings of one key. -/
def spellings : Members String := [("SSN", "SSN"), ("ssn", "ssn")]

def twiceSealed : Json := .object [("ssn", .string "##x")]

theorem propertiesOf_spellings : Rows.propertiesOf spellings = ["SSN", "ssn"] :=
  List.mergeSort_of_pairwise (by decide +kernel)

end Sample

open Sample Rows in
/-- A cell that two spellings of its key have is handed over twice, the second time with its own
plaintext. -/
theorem cell_opened_twice :
    calls handler false (propertiesOf spellings) twiceSealed =
      [⟨[.key "ssn"], "##x"⟩, ⟨[.key "ssn"], "#x"⟩] ∧
    handler.decrypt "##x" = .ok "#x" ∧
    decrypt handler false spellings (.rows [twiceSealed]) =
      ⟨.rows [.object [("ssn", .string "x")]], ⟨2, 0⟩, []⟩ := by
  refine ⟨?_, by decide +kernel, ?_⟩
  · rw [propertiesOf_spellings]
    decide +kernel
  · rw [decrypt, propertiesOf_spellings]
    with_unfolding_all rfl

end SealedColumns
