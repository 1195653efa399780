import SealedColumns.Proofs.Store.Reveal
import SealedColumns.Proofs.Turns

/-!
Decryption of the rows of a result. Each row is gone through on its own, and what becomes of it
depends on the set of the properties alone. Only cells of the properties that are not null change,
each into its plaintext, and the report counts the turns that hand a cell over.
-/
namespace SealedColumns.Rows

open Property

/-- Whether the property has a cell that is not null when its turn comes. -/
def Turn.opens (camelCase : Bool) (turn : Turn) : Bool :=
  match cell? camelCase turn.property turn.row with
  | none | some .null => false
  | some _ => true

/-- Whether the handler fails on the cell that the property has when its turn comes. -/
def Turn.fails (handler : Handler) (camelCase : Bool) (turn : Turn) : Bool :=
  match call? camelCase turn.property turn.row with
  | some call => !(handler.decrypt call.text).isOk
  | none => false

/-- The reports of some rows as one. -/
def totalReport (reports : List DecryptReport) : DecryptReport :=
  reports.foldr DecryptReport.add .none

/-- What becomes of one row: it keeps its keys and all that is outside of the cells of the
properties, and it is the row that the turns of all the properties leave. -/
structure RowDecrypted (handler : Handler) (camelCase : Bool) (properties : List String)
    (row : Json) (outcome : Outcome Json) : Prop where
  keys : ∀ members, row = .object members →
    ∃ members', outcome.value = .object members' ∧ Members.keys members' = Members.keys members
  frame : ∀ cell, (∀ property ∈ properties, ∀ place,
      Resolves camelCase row property place → ¬ place <+: cell) →
    (getAt? outcome.value cell).map Json.outline = (getAt? row cell).map Json.outline
  passes : ∃ turns, RowPasses handler camelCase properties row turns outcome ∧
    turns.map Turn.property = properties ∧
    outcome.report.decrypted + outcome.report.failed = turns.countP (Turn.opens camelCase) ∧
    outcome.report.failed = turns.countP (Turn.fails handler camelCase)

variable {handler : Handler} {camelCase : Bool} {properties : List String} {row : Json}
  {turns : List Turn} {outcome : Outcome Json}

section Rows

theorem Turn.opens_eq (camelCase : Bool) (turn : Turn) :
    turn.opens camelCase = (call? camelCase turn.property turn.row).isSome := by
  have read := cell?_bind_cipherText? camelCase turn.property turn.row
  rw [← Option.isSome_map, ← read, Turn.opens]
  cases cell? camelCase turn.property turn.row with
  | none => rfl
  | some value => cases value <;> rfl

theorem RowPasses.counted (passes : RowPasses handler camelCase properties row turns outcome) :
    outcome.report.decrypted + outcome.report.failed = turns.countP (Turn.opens camelCase) ∧
      outcome.report.failed = turns.countP (Turn.fails handler camelCase) := by
  induction passes with
  | done => exact ⟨rfl, rfl⟩
  | @turn property rest row turns first others step _ ih =>
    obtain ⟨opened, failed⟩ := ih
    rw [List.countP_cons, List.countP_cons, Turn.opens_eq, Turn.fails, ← opened, ← failed]
    simp only [DecryptReport.add]
    cases step with
    | passed clear => simp [call?_eq_none.mpr clear]
    | kept made answer =>
      simp only [made, answer, Option.isSome_some, Except.isOk, Except.toBool, Bool.not_false,
        if_true]
      omega
    | opened made answer _ =>
      simp only [made, answer, Option.isSome_some, Except.isOk, Except.toBool, Bool.not_true,
        Bool.false_eq_true, if_true, if_false]
      omega

theorem RowPasses.decrypted (passes : RowPasses handler camelCase properties row turns outcome) :
    RowDecrypted handler camelCase properties row outcome := by
  refine ⟨?_, fun cell => passes.frame, turns, passes, passes.map_property, passes.counted⟩
  rintro members rfl
  exact Json.object_of_outline passes.outline

end Rows

theorem decryptRows_value (handler : Handler) (camelCase : Bool) (properties : List String)
    (rows : List Json) : (decryptRows handler camelCase properties rows).value =
      rows.map fun row => (decryptRow handler camelCase properties row).value := by
  induction rows with
  | nil => rfl
  | cons row rows ih => exact congrArg _ ih

theorem decryptRows_report (handler : Handler) (camelCase : Bool) (properties : List String)
    (rows : List Json) : (decryptRows handler camelCase properties rows).report =
      totalReport (rows.map fun row => (decryptRow handler camelCase properties row).report) := by
  induction rows with
  | nil => rfl
  | cons row rows ih =>
    rw [decryptRows, ih]
    rfl

theorem add_left_comm (a b c : DecryptReport) : a.add (b.add c) = b.add (a.add c) := by
  simp only [DecryptReport.add, DecryptReport.mk.injEq]
  exact ⟨Nat.add_left_comm _ _ _, Nat.add_left_comm _ _ _⟩

theorem totalReport_perm {reports reports' : List DecryptReport} (perm : reports'.Perm reports) :
    totalReport reports' = totalReport reports :=
  perm.foldr_eq' (fun a _ b _ c => add_left_comm b a c) _

theorem decryptRows_nil (handler : Handler) (camelCase : Bool) (rows : List Json) :
    decryptRows handler camelCase [] rows = ⟨rows, .none, []⟩ := by
  induction rows with
  | nil => rfl
  | cons row rows ih =>
    rw [decryptRows, ih]
    rfl

theorem propertiesOf_nil : propertiesOf [] = [] := by
  refine List.eq_nil_iff_forall_not_mem.mpr fun property member => ?_
  cases ((Store.propertiesOf_spec []).2 property).mp member

/-- The properties are a sorted list of the set of those that are recorded. -/
theorem propertiesOf_congr {aliases others : Members String}
    (same : ∀ property, property ∈ others.values ↔ property ∈ aliases.values) :
    propertiesOf others = propertiesOf aliases := by
  obtain ⟨single, listed⟩ := Store.propertiesOf_spec aliases
  obtain ⟨single', listed'⟩ := Store.propertiesOf_spec others
  have perm : (propertiesOf others).Perm (propertiesOf aliases) :=
    (List.perm_ext_iff_of_nodup single' single).mpr fun property => by
      rw [listed, listed', same]
  have sorted (aliases : Members String) :
      (propertiesOf aliases).Pairwise fun a b => decide (a ≤ b) = true :=
    List.pairwise_mergeSort (fun a b c first second => by
      simp only [decide_eq_true_eq] at first second ⊢
      exact String.le_trans first second)
      (fun a b => by simpa using String.le_total a b) _
  refine List.Perm.eq_of_pairwise ?_ (sorted others) (sorted aliases) perm
  intro a b _ _ up down
  exact String.le_antisymm (of_decide_eq_true up) (of_decide_eq_true down)

/-- For every handler and recorded properties, only rows are changed, each by itself and by the set
of the properties; and of a row only the cells of properties that are not null, each of which keeps
its value or becomes the plaintext of it. -/
theorem rows_decrypted (handler : Handler) (camelCase : Bool) (aliases : Members String) :
    (∀ value, decrypt handler camelCase aliases (.scalar value) = ⟨.scalar value, ⟨0, 0⟩, []⟩) ∧
    decrypt handler camelCase aliases .unit = ⟨.unit, ⟨0, 0⟩, []⟩ ∧
    (∀ result, decrypt handler camelCase [] result = ⟨result, ⟨0, 0⟩, []⟩) ∧
    (∀ others : Members String,
      (∀ property, property ∈ others.values ↔ property ∈ aliases.values) →
        decrypt handler camelCase others = decrypt handler camelCase aliases) ∧
    let single := decryptRow handler camelCase (propertiesOf aliases)
    (∀ rows, (decrypt handler camelCase aliases (.rows rows)).value =
        .rows (rows.map fun row => (single row).value) ∧
      (decrypt handler camelCase aliases (.rows rows)).report =
        totalReport (rows.map fun row => (single row).report)) ∧
    (∀ rows rows' : List Json, rows'.Perm rows →
      (decrypt handler camelCase aliases (.rows rows')).report =
        (decrypt handler camelCase aliases (.rows rows)).report) ∧
    (propertiesOf aliases).Nodup ∧
    (∀ property, property ∈ propertiesOf aliases ↔ property ∈ aliases.values) ∧
    ∀ row, RowDecrypted handler camelCase (propertiesOf aliases) row (single row) := by
  have report (rows : List Json) := decryptRows_report handler camelCase (propertiesOf aliases) rows
  refine ⟨fun _ => rfl, rfl, ?_, ?_, ?_, ?_, (Store.propertiesOf_spec aliases).1,
    (Store.propertiesOf_spec aliases).2,
    fun row => (decryptRow_passes handler camelCase _ row).decrypted⟩
  · intro result
    cases result with
    | rows rows =>
      simp only [decrypt, propertiesOf_nil, decryptRows_nil]
      rfl
    | scalar | unit => rfl
  · intro others same
    funext result
    cases result with
    | rows rows => simp only [decrypt, propertiesOf_congr same]
    | scalar | unit => rfl
  · exact fun rows => ⟨congrArg QueryResult.rows (decryptRows_value handler camelCase _ rows),
      report rows⟩
  · intro rows rows' perm
    exact (report rows').trans ((totalReport_perm (perm.map _)).trans (report rows).symm)

end SealedColumns.Rows
