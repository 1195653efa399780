import SealedColumns.Proofs.Alignment
import SealedColumns.Proofs.Expansion
import SealedColumns.Proofs.Idempotence
import SealedColumns.Proofs.Reliable
import SealedColumns.Proofs.Splice

/-!
The INSERT that a pass leaves, position by position. At each position of the column list either the
column and its value in every row stay, or the column gives way to its target and its index and the
value in every row to a pair, at the same places; and the mappings follow the placeholders.
-/
namespace SealedColumns

open Sql

/-- The handler does not fail when it is called with a text. -/
structure Handler.Answers (handler : Handler) (text : String) : Prop where
  encrypts : ∀ supply, ∃ cipher, (handler.encrypt text supply).1 = .ok cipher
  indexes : ∃ index, handler.index text = .ok index

/-- A placeholder, a string, a number or NULL. -/
def Sql.Expr.isPlain : Expr Nat → Bool
  | .value (.placeholder (.numbered _)) => true
  | .value (.string _) => true
  | .value (.number _ _) => true
  | .value .null => true
  | _ => false

/-- What is spliced is one part for each item, one behind the other. -/
theorem Spliced.parts {α β : Type} {keep : Bool} {pair : β → α → α → α → Prop}
    {items : List (α × Option β)} {out : List α} (spliced : Spliced keep pair items out) :
    ∃ parts, out = parts.flatten ∧ List.Forall₂ (fun item part =>
      match item.2 with
      | none => part = [item.1]
      | some slot => ∃ target index, pair slot item.1 target index ∧
          part = (if keep then [item.1] else []) ++ [target, index]) items parts := by
  induction spliced with
  | nil => exact ⟨[], rfl, .nil⟩
  | @kept item items out _ ih =>
    obtain ⟨parts, rfl, related⟩ := ih
    exact ⟨[item] :: parts, rfl, .cons rfl related⟩
  | @pair slot item target index items out here _ ih =>
    obtain ⟨parts, rfl, related⟩ := ih
    refine ⟨((if keep then [item] else []) ++ [target, index]) :: parts, ?_,
      .cons ⟨target, index, here, rfl⟩ related⟩
    rw [List.flatten_cons, List.append_assoc]
    rfl

namespace Sealing

section Reference

variable (g : Sealing) (bound : BoundStatement) (columns : List Ident)
  (rows : List (List (Expr Nat)))

/-- The column that the values at a position are sealed for: there is one if the position has a
sensitive column and a plain value in every row. -/
def pairedAt (position : Nat) : Option SensitiveColumn :=
  (columns[position]?.bind g.active.get?).filter fun _ =>
    rows.all fun row => row[position]?.any Expr.isPlain

def identsAt (place : Ident × Nat) : List Ident :=
  match g.pairedAt columns rows place.2 with
  | none => [place.1]
  | some c => (if g.options.writeSource then [place.1] else []) ++
      [{ place.1 with text := c.target }, { place.1 with text := c.index }]

def identsExpanded : List Ident := columns.zipIdx.flatMap (g.identsAt columns rows)

/-- What stands for the value at a position of a row. -/
def CellsAt (place : Expr Nat × Nat) (cells : List (Expr Nat)) : Prop :=
  match g.pairedAt columns rows place.2 with
  | none => cells = [place.1]
  | some _ => ∃ target index, g.ValuePair place.1 target index ∧
      cells = (if g.options.writeSource then [place.1] else []) ++ [target, index]

def RowExpanded (row row' : List (Expr Nat)) : Prop :=
  ∃ parts, row' = parts.flatten ∧ List.Forall₂ (g.CellsAt columns rows) row.zipIdx parts

/-- The values at the positions that are sealed, row by row. -/
def pairedCells : List (Expr Nat) :=
  rows.flatMap fun row =>
    (row.zipIdx.filter fun place => (g.pairedAt columns rows place.2).isSome).map Prod.fst

def pairedOrdinals : List Nat := (g.pairedCells columns rows).filterMap Expr.ordinal?

/-- The text that a value is sealed as. -/
def cellText? : Expr Nat → Option String
  | .value (.string text) => some text
  | .value (.number text _) => some text
  | .value (.placeholder (.numbered n)) =>
    (bound.mappings[n]?.bind fun m => ((Parameters.ofBound bound).valueOf m).plain?).join
  | _ => none

/-- What is bound in the place of a mapping. -/
def MappingsAt (ns : List Nat) (final : BoundStatement) (place : ParameterMapping × Nat)
    (mappings : List ParameterMapping) : Prop :=
  if place.2 ∈ ns then
    ∃ target index plain cipher key,
      ((Parameters.ofBound bound).valueOf place.1).plain? = some plain ∧ g.Pair plain cipher key ∧
      New bound target ∧ New bound index ∧ target ≠ index ∧
      (Parameters.ofBound final).valueOf (.text target) = cipher ∧
      (Parameters.ofBound final).valueOf (.text index) = key ∧
      mappings = (if g.options.writeSource then [place.1] else []) ++ [.text target, .text index]
  else mappings = [place.1]

end Reference

variable {g : Sealing} {bound : BoundStatement} {supply : Supply} {columns : List Ident}
  {rows : List (List (Expr Nat))}

theorem isPlain_eq (e : Expr Nat) : e.isPlain = (Operand.ofExpr? e).isSome := by
  cases e with
  | value v =>
    cases v with
    | placeholder mark => cases mark <;> rfl
    | _ => rfl
  | _ => rfl

/-- Both ways of pairing: by the recursion of a pass, and position by position. -/
theorem columnSlots_eq (columns : List Ident) (rows : List (List (Expr Nat))) :
    g.columnSlots columns rows = (List.range columns.length).map (g.pairedAt columns rows) := by
  have each : ∀ place ∈ columns.zipIdx,
      g.columnSlot? rows place.2 place.1 = g.pairedAt columns rows place.2 := by
    intro place member
    have supported : (rows.all fun row => row[place.2]?.any Expr.isPlain) =
        isSupportedAt rows place.2 := by
      refine congrArg rows.all (funext fun row => ?_)
      cases row[place.2]? with
      | none => rfl
      | some e => exact isPlain_eq e
    rw [pairedAt, columnSlot?, List.mem_zipIdx_iff_getElem?.mp member, Option.bind_some, supported]
  rw [columnSlots, List.map_congr_left each, List.range_eq_range', ← List.zipIdx_map_snd 0 columns,
    List.map_map]
  rfl

theorem zip_positions {α β : Type} {items : List α} {k : Nat} (f : Nat → β)
    (wide : items.length = k) :
    items.zip ((List.range k).map f) = items.zipIdx.map fun place => (place.1, f place.2) := by
  subst wide
  rw [List.zipIdx_eq_zip_range', ← List.range_eq_range', List.zip_map_right]
  rfl

theorem zip_pairedAt {α : Type} {items : List α} (wide : items.length = columns.length) :
    items.zip (g.columnSlots columns rows) =
      items.zipIdx.map fun place => (place.1, g.pairedAt columns rows place.2) := by
  rw [columnSlots_eq, zip_positions _ wide]

theorem rowsWritten_eq (wide : ∀ row ∈ rows, row.length = columns.length) :
    g.rowsWritten columns rows = g.pairedOrdinals columns rows := by
  rw [pairedOrdinals, pairedCells, List.filterMap_flatMap, rowsWritten]
  refine List.flatMap_congr fun row member => ?_
  rw [slotted, zip_pairedAt (wide row member), List.flatMap_map, List.filterMap_map]
  generalize row.zipIdx = items
  induction items with
  | nil => rfl
  | cons item items ih =>
    rw [List.flatMap_cons, ih]
    cases paired : g.pairedAt columns rows item.2 with
    | none => simp [paired]
    | some c => cases ordinal : item.1.ordinal? <;> simp [paired, ordinal]

/-! A pass succeeds where the handler answers and no value is structured. -/

theorem plainText_succeeds {plain : String} (answers : g.handler.Answers plain) :
    g.Succeeds bound supply (g.sealText plain) [] fun _ => True := by
  intro done d part _ ledger
  obtain ⟨cipher, encrypted⟩ := answers.encrypts d.supply
  obtain ⟨index, indexed⟩ := answers.indexes
  rw [List.append_nil]
  refine ⟨(cipher, index), { d with supply := (g.handler.encrypt plain d.supply).2 }, part, ?_,
    trivial, ledger.quiet rfl (g.handler.encrypt_sameNames plain d.supply), rfl⟩
  simp only [sealText, Seal.gives_bind, gives_encrypt, gives_index, Seal.gives_pure]
  exact ⟨_, _, ⟨encrypted, rfl⟩, _, _, ⟨indexed, rfl⟩, rfl, rfl⟩

theorem sealedValues_gives_of_answers {plain : Option String}
    (answers : ∀ text, plain = some text → g.handler.Answers text) (d : Draft) :
    ∃ target index d', (g.sealedValues plain).Gives d (target, index) d' ∧
      d'.aliases = d.aliases := by
  cases plain with
  | none => exact ⟨.null, .null, d, by simp [sealedValues], rfl⟩
  | some text =>
    obtain ⟨cipher, encrypted⟩ := (answers text rfl).encrypts d.supply
    obtain ⟨index, indexed⟩ := (answers text rfl).indexes
    refine ⟨.string cipher, .string index,
      { d with supply := (g.handler.encrypt text d.supply).2 }, ?_, rfl⟩
    simp only [sealedValues, sealText, Seal.gives_bind, gives_encrypt, gives_index,
      Seal.gives_pure]
    exact ⟨_, _, ⟨_, _, ⟨encrypted, rfl⟩, _, _, ⟨indexed, rfl⟩, rfl, rfl⟩, rfl, rfl⟩

theorem write_succeeds (fresh : supply.Fresh bound) (inputs : g.inputs = bound.mappings) {n : Nat}
    {m : ParameterMapping} {plain : Option String} (input : bound.mappings[n]? = some m)
    (read : ((Parameters.ofBound bound).valueOf m).plain? = some plain)
    (answers : ∀ text, plain = some text → g.handler.Answers text) :
    g.Succeeds bound supply (g.act (.write n)) [.write n] fun _ => True := by
  intro done d part allowed ledger
  have untouched : ∀ b ∈ done, b.ordinal ≠ n := by
    have single := allowed.single
    rw [List.map_append, List.nodup_append] at single
    intro b member
    exact single.2.2 b.ordinal (List.mem_map_of_mem member) n (by simp [Act.ordinal])
  have known : g.inputs[n]? = some m := by rw [inputs, input]
  rw [← ledger.reads fresh (List.mem_of_getElem? input)] at read
  obtain ⟨target, index, mid, sealed, aliases⟩ := sealedValues_gives_of_answers answers d
  have still : some n ∈ mid.parameters.origins :=
    (sealedValues_gives sealed).2.1 ▸ ledger.found input untouched
  obtain ⟨d', bound', same⟩ := bindPair_gives still target index
  have step : (g.act (.write n)).Gives d () d' := by
    simp only [act, Seal.gives_bind, gives_valueAt, gives_plainText]
    exact ⟨_, d, ⟨⟨m, known, rfl⟩, rfl⟩, plain, d, ⟨read, rfl⟩, _, _, sealed, bound'⟩
  obtain ⟨part', ledger'⟩ := ledger.act fresh inputs (a := .write n) untouched step
  exact ⟨(), d', part', step, trivial, ledger', same.trans aliases⟩

/-- What the reference asks of the values that are sealed. -/
structure Ready (g : Sealing) (bound : BoundStatement) (e : Expr Nat) : Prop where
  plain : e.isPlain = true
  scalar : ∀ n ∈ e.ordinal?, ∃ m plain, bound.mappings[n]? = some m ∧
    ((Parameters.ofBound bound).valueOf m).plain? = some plain
  answers : ∀ text ∈ cellText? bound e, g.handler.Answers text

theorem plainValue_succeeds (fresh : supply.Fresh bound) (inputs : g.inputs = bound.mappings)
    {e : Expr Nat} (ready : Ready g bound e) :
    g.Succeeds bound supply (g.sealValue e) (writing e.ordinal?.toList) fun _ => True := by
  obtain ⟨operand, known⟩ := Option.isSome_iff_exists.mp ((isPlain_eq e).symm.trans ready.plain)
  obtain ⟨v, rfl, value⟩ := Operand.ofExpr?_eq_some.mp known
  have run : g.sealValue (.value v) = g.sealOperand operand := by rw [sealValue, known]
  rw [run]
  cases operand with
  | placeholder n =>
    obtain rfl := Operand.ofValue?_placeholder.mp value
    have written : g.sealOperand (.placeholder n) =
        g.act (.write n) >>= fun _ => pure (Expr.anonymous, Expr.anonymous) := by
      simp only [sealOperand, act, bind_assoc]
    obtain ⟨m, plain, input, read⟩ := ready.scalar n rfl
    have text : cellText? bound (.value (.placeholder (.numbered n))) = plain := by
      simp only [cellText?, input, Option.bind_some, read, Option.join_some]
    rw [written]
    refine (write_succeeds fresh inputs input read fun text' same => ?_).wrap fun _ _ => trivial
    exact ready.answers text' (text.trans same)
  | literal plain =>
    have literal : cellText? bound (.value v) = some plain ∧ (Expr.value v).ordinal? = none := by
      cases v with
      | string | number =>
        cases value
        exact ⟨rfl, rfl⟩
      | placeholder mark => cases mark <;> cases value
      | _ => cases value
    rw [literal.2]
    exact (plainText_succeeds (ready.answers plain literal.1)).wrap fun _ _ => trivial
  | null =>
    obtain rfl := Operand.ofValue?_null.mp value
    exact Succeeds.pure trivial

theorem splice_succeeds (fresh : supply.Fresh bound) (inputs : g.inputs = bound.mappings)
    (keep : Bool) {items : List (Expr Nat × Option SensitiveColumn)}
    (ready : ∀ item ∈ items, item.2.isSome → Ready g bound item.1) :
    g.Succeeds bound supply (expand keep (fun _ e => g.sealValue e) items)
      (writing (slotted id items)) fun _ => True := by
  induction items with
  | nil => exact Succeeds.pure trivial
  | cons item items ih =>
    obtain ⟨e, slot⟩ := item
    have others := ih fun item member => ready item (List.mem_cons_of_mem _ member)
    cases slot with
    | none => exact others.wrap fun _ _ => trivial
    | some c =>
      have first := plainValue_succeeds fresh inputs (ready _ List.mem_cons_self rfl)
      have acts : slotted id ((e, some c) :: items) = e.ordinal?.toList ++ slotted id items := rfl
      rw [acts, writing_append, expand]
      exact first.bind fun _ _ => others.wrap fun _ _ => trivial

theorem note_succeeds (event : Event) :
    g.Succeeds bound supply (Seal.note event) [] fun _ => True := by
  intro done d part _ ledger
  rw [List.append_nil]
  exact ⟨(), _, part, (Seal.gives_note event d _ _).mpr rfl, trivial,
    ledger.quiet rfl (.refl _), rfl⟩

theorem slots_succeed (columns : List Ident) (rows : List (List (Expr Nat))) :
    g.Succeeds bound supply
      (columns.zipIdx.mapM fun (ident, position) => g.columnSlot rows position ident) []
      fun _ => True := by
  have each : ∀ place ∈ columns.zipIdx,
      g.Succeeds bound supply (g.columnSlot rows place.2 place.1) [] fun _ => True := by
    intro place _
    unfold columnSlot
    cases g.active.get? place.1 with
    | none => exact Succeeds.pure trivial
    | some c =>
      dsimp only
      split
      · exact Succeeds.pure trivial
      · exact (note_succeeds _).wrap fun _ _ => trivial
  have all := Succeeds.mapM each
  rw [List.flatMap_eq_nil_iff.mpr fun _ _ => rfl] at all
  exact all.weaken fun _ _ => trivial

/-- A step may be followed by any of its results. -/
theorem Succeeds.given {α : Type} {m : Seal α} {acts : List Act} {ok : α → Prop}
    (first : g.Succeeds bound supply m acts ok) :
    g.Succeeds bound supply m acts fun a => ok a ∧ ∃ d d', m.Gives d a d' := by
  intro done d part allowed ledger
  obtain ⟨a, d', part', run, holds, rest⟩ := first done d part allowed ledger
  exact ⟨a, d', part', run, ⟨holds, d, d', run⟩, rest⟩

theorem mem_pairedCells {row : List (Expr Nat)} {place : Expr Nat × Nat} (listed : row ∈ rows)
    (member : place ∈ row.zipIdx) (paired : (g.pairedAt columns rows place.2).isSome) :
    place.1 ∈ g.pairedCells columns rows :=
  List.mem_flatMap.mpr ⟨row, listed, List.mem_map_of_mem (List.mem_filter.mpr ⟨member, paired⟩)⟩

theorem insertRows_succeed (fresh : supply.Fresh bound) (inputs : g.inputs = bound.mappings)
    (x : Insert Nat) (wide : ∀ row ∈ rows, row.length = x.columns.length)
    (ready : ∀ e ∈ g.pairedCells x.columns rows, Ready g bound e) :
    g.Succeeds bound supply (g.sealInsertRows x rows) (writing (g.rowsWritten x.columns rows))
      fun _ => True := by
  unfold sealInsertRows
  rw [← List.nil_append (writing _)]
  refine (slots_succeed x.columns rows).given.bind fun slots given => ?_
  obtain ⟨-, d, d', run⟩ := given
  obtain ⟨chosen, -⟩ := mapM_still (fun chosen => columnSlot_choice chosen) run
  obtain rfl : slots = g.columnSlots x.columns rows := chosen
  have each : ∀ row ∈ rows, g.Succeeds bound supply (g.sealRow (g.columnSlots x.columns rows) row)
      (writing (slotted id (row.zip (g.columnSlots x.columns rows)))) fun _ => True := by
    intro row member
    refine splice_succeeds fresh inputs _ fun item inside paired => ?_
    rw [zip_pairedAt (wide row member)] at inside
    obtain ⟨place, here, rfl⟩ := List.mem_map.mp inside
    exact ready place.1 (mem_pairedCells member here paired)
  have flat : writing (g.rowsWritten x.columns rows) = rows.flatMap fun row =>
      writing (slotted id (row.zip (g.columnSlots x.columns rows))) := List.map_flatMap
  rw [flat]
  exact (Succeeds.mapM each).wrap fun _ _ => trivial

/-- An INSERT whose rows are as wide as its column list, which names no derived column. -/
structure Expandable (g : Sealing) (x : Insert Nat) (rows : List (List (Expr Nat))) : Prop where
  listed : x.columns ≠ []
  rowsOf : rowsOf? x.source = some rows
  underived : x.columns.any g.active.isDerived = false
  wide : ∀ row ∈ rows, row.length = x.columns.length

namespace Expandable

variable {x : Insert Nat}

theorem filled (expandable : g.Expandable x rows) :
    (rows.any fun row => row.length != x.columns.length) = false := by
  rw [List.any_eq_false]
  intro row member
  simp [expandable.wide row member]

theorem written (expandable : g.Expandable x rows) :
    g.insertWritten x = g.rowsWritten x.columns rows := by
  simp only [insertWritten, List.isEmpty_iff, expandable.listed, expandable.underived,
    sourceWritten, expandable.rowsOf, expandable.filled, Bool.false_eq_true, if_false]

theorem succeeds (expandable : g.Expandable x rows) (fresh : supply.Fresh bound)
    (inputs : g.inputs = bound.mappings)
    (ready : ∀ e ∈ g.pairedCells x.columns rows, Ready g bound e) :
    g.Succeeds bound supply (g.sealInsert x) (writing (g.insertWritten x)) fun _ => True := by
  rw [expandable.written]
  simp only [sealInsert, List.isEmpty_iff, expandable.listed, expandable.underived,
    expandable.rowsOf, expandable.filled, Bool.false_eq_true, if_false]
  split
  · rename_i plain
    rw [rowsWritten_plain plain]
    exact Succeeds.pure trivial
  · exact insertRows_succeed fresh inputs x expandable.wide ready

end Expandable

/-! The result, split into the parts of the positions. -/

theorem rowExpanded_of_sealed {row row' : List (Expr Nat)}
    (wide : row.length = columns.length)
    (sealed : g.RowSealed (g.columnSlots columns rows) row row') :
    g.RowExpanded columns rows row row' := by
  obtain ⟨parts, whole, related⟩ := Spliced.parts sealed
  rw [zip_pairedAt wide, List.forall₂_map_left_iff] at related
  refine ⟨parts, whole, related.imp fun place cells here => ?_⟩
  unfold CellsAt
  cases paired : g.pairedAt columns rows place.2 with
  | none => simpa only [paired] using here
  | some c => simpa only [paired] using here

theorem expandColumns_eq (columns : List Ident) (rows : List (List (Expr Nat))) :
    g.expandColumns columns (g.columnSlots columns rows) = g.identsExpanded columns rows := by
  obtain ⟨parts, whole, related⟩ :=
    (expandColumns_spliced (g := g) columns (g.columnSlots columns rows)).parts
  rw [zip_pairedAt rfl, List.forall₂_map_left_iff] at related
  rw [whole, identsExpanded, List.flatMap_def]
  refine congrArg List.flatten ?_
  clear whole
  generalize columns.zipIdx = places at related
  induction related with
  | nil => rfl
  | @cons place part places parts here _ ih =>
    rw [List.map_cons, ← ih]
    refine congrArg (· :: parts) ?_
    unfold identsAt
    cases paired : g.pairedAt columns rows place.2 with
    | none => simpa only [paired] using here
    | some c =>
      simp only [paired] at here
      obtain ⟨target, index, same, rfl⟩ := here
      obtain ⟨rfl, rfl⟩ := Prod.mk.inj same
      rfl

theorem pairedAt_plain (plain : ∀ ident ∈ columns, g.active.get? ident = none) (position : Nat) :
    g.pairedAt columns rows position = none := by
  unfold pairedAt
  cases found : columns[position]? with
  | none => rfl
  | some ident =>
    rw [Option.bind_some, plain ident (List.mem_of_getElem? found), Option.filter_none]

theorem identsExpanded_plain (plain : ∀ ident ∈ columns, g.active.get? ident = none) :
    g.identsExpanded columns rows = columns := by
  have each : g.identsAt columns rows = fun place => [place.1] := by
    funext place
    rw [identsAt, pairedAt_plain plain]
  rw [identsExpanded, each, ← List.map_eq_flatMap, List.zipIdx_map_fst]

theorem rowExpanded_plain (plain : ∀ ident ∈ columns, g.active.get? ident = none)
    (row : List (Expr Nat)) : g.RowExpanded columns rows row row := by
  refine ⟨row.zipIdx.map fun place => [place.1], ?_, ?_⟩
  · rw [← List.flatMap_def, ← List.map_eq_flatMap, List.zipIdx_map_fst]
  · rw [List.forall₂_map_right_iff]
    refine List.forall₂_same.mpr fun place _ => ?_
    rw [CellsAt, pairedAt_plain plain]

theorem withRows_rowsOf? {source : Option (Query Nat)} (found : rowsOf? source = some rows) :
    withRows rows source = source := by
  unfold rowsOf? at found
  split at found
  · cases found
    rfl
  · cases found

/-- Sealing an INSERT gives the one that the positions say. -/
theorem Expandable.expanded {x x' : Insert Nat} {d d' : Draft} (expandable : g.Expandable x rows)
    (run : (g.sealInsert x).Gives d x' d') :
    ∃ rows', List.Forall₂ (g.RowExpanded x.columns rows) rows rows' ∧
      x' = { x with
        columns := g.identsExpanded x.columns rows
        source := withRows rows' x.source } := by
  cases sealInsert_sealed run with
  | assignments bare => exact absurd bare expandable.listed
  | kept _ unsealed =>
    cases unsealed with
    | derived derived => exact absurd (derived.symm.trans expandable.underived) (by decide)
    | plain plain =>
      refine ⟨rows, List.forall₂_same.mpr fun row _ => rowExpanded_plain plain row, ?_⟩
      rw [identsExpanded_plain plain, withRows_rowsOf? expandable.rowsOf]
      cases x
      rfl
    | source missing => exact absurd (missing.symm.trans expandable.rowsOf) (by simp)
    | width found narrow =>
      obtain rfl := Option.some.inj (found.symm.trans expandable.rowsOf)
      obtain ⟨row, member, narrow⟩ := narrow
      exact absurd (expandable.wide row member) narrow
  | @rows found rows' _ _ rowsOf wide sealed =>
    obtain rfl := Option.some.inj (rowsOf.symm.trans expandable.rowsOf)
    refine ⟨rows', ?_, by rw [expandColumns_eq]⟩
    refine List.forall₂_iff_zip.mpr ⟨sealed.length_eq, fun {row row'} member => ?_⟩
    exact rowExpanded_of_sealed (wide row (List.of_mem_zip member).1)
      ((List.forall₂_iff_zip.mp sealed).2 member)

theorem mappingsAt_of_expanded {x : Insert Nat} {final : BoundStatement} {n : Nat}
    {m : ParameterMapping} {mappings : List ParameterMapping}
    (expandable : g.Expandable x rows)
    (expanded : Expanded g bound final (.insert x) n m mappings) :
    g.MappingsAt bound (g.pairedOrdinals x.columns rows) final (m, n) mappings := by
  have written : g.written (.insert x) = g.pairedOrdinals x.columns rows :=
    expandable.written.trans (rowsWritten_eq expandable.wide)
  have compared : g.compared (.insert x) = [] := rfl
  unfold MappingsAt
  cases expanded with
  | kept unwritten => rw [if_neg (written ▸ unwritten)]
  | null acted | indexed acted => exact absurd (compared ▸ acted) List.not_mem_nil
  | @pair target index plain cipher key acted _ read pair first second differ held kept =>
    rw [if_pos (written ▸ acted)]
    exact ⟨target, index, plain, cipher, key, read, pair, first, second, differ, held, kept, rfl⟩

/-- What a pass makes of an INSERT that can be expanded. -/
structure Expands (g : Sealing) (bound : BoundStatement) (x : Insert Nat)
    (rows rows' : List (List (Expr Nat))) (x' : Insert Nat) (sealed : Sealed) : Prop where
  cells : List.Forall₂ (g.RowExpanded x.columns rows) rows rows'
  sql : sealed.bound.sql = (Statement.insert x').restore.render
  placeholders : (Statement.insert x').origins =
    expandOrigins g.options.writeSource (g.pairedOrdinals x.columns rows)
      ((List.range bound.mappings.length).map some)
  mappings : ∃ parts, sealed.bound.mappings = parts.flatten ∧
    List.Forall₂ (g.MappingsAt bound (g.pairedOrdinals x.columns rows) sealed.bound)
      bound.mappings.zipIdx parts
  counted : (Statement.insert x').origins.length = sealed.bound.mappings.length
  object : sealed.bound.object = bound.object
  aliases : sealed.aliases = []

theorem isPlain_of_paired {e : Expr Nat} (paired : e ∈ g.pairedCells columns rows) :
    e.isPlain = true := by
  obtain ⟨row, listed, member⟩ := List.mem_flatMap.mp paired
  obtain ⟨place, inside, rfl⟩ := List.mem_map.mp member
  obtain ⟨inside, here⟩ := List.mem_filter.mp inside
  obtain ⟨c, found⟩ := Option.isSome_iff_exists.mp here
  have all := List.all_eq_true.mp (Option.filter_eq_some_iff.mp found).2 row listed
  rwa [List.mem_zipIdx_iff_getElem?.mp inside, Option.any_some] at all

/-- The ordinals that are sealed are those of mappings, each of them once. -/
theorem Expandable.allowed {x : Insert Nat} {statement : Statement}
    (expandable : g.Expandable x rows) (counted : statement.countAnonymous = bound.mappings.length)
    (numbered : statement.number.1 = .insert x) :
    (∀ n ∈ g.pairedOrdinals x.columns rows, n < bound.mappings.length) ∧
      Allowed bound [] (writing (g.insertWritten x)) := by
  have origins : originsOf x.visits = (List.range bound.mappings.length).map some := by
    have known := statement.origins_number
    rw [numbered, counted] at known
    exact known
  have within := within_insertWritten (g := g) x
  have inside : ∀ n ∈ g.insertWritten x, n < bound.mappings.length := by
    intro n member
    have known := within.mem member
    rw [origins] at known
    simpa using known
  refine ⟨fun n member => inside n ?_, ?_, ?_⟩
  · rwa [expandable.written, rowsWritten_eq expandable.wide]
  · intro a acted
    obtain ⟨n, member, rfl⟩ := mem_writing.mp acted
    exact inside n member
  · have ordinals : (writing (g.insertWritten x)).map Act.ordinal = g.insertWritten x := by
      simp [writing, Function.comp_def, Act.ordinal]
    rw [List.nil_append, ordinals]
    exact within.nodup (origins ▸ once_range _)

theorem Expandable.ready {x : Insert Nat} {statement : Statement}
    (expandable : g.Expandable x rows) (counted : statement.countAnonymous = bound.mappings.length)
    (numbered : statement.number.1 = .insert x)
    (scalars : ∀ n ∈ g.pairedOrdinals x.columns rows, ∀ m, bound.mappings[n]? = some m →
      ∃ plain, ((Parameters.ofBound bound).valueOf m).plain? = some plain)
    (answers : ∀ e ∈ g.pairedCells x.columns rows, ∀ text ∈ cellText? bound e,
      g.handler.Answers text) :
    ∀ e ∈ g.pairedCells x.columns rows, Ready g bound e := by
  intro e paired
  refine ⟨isPlain_of_paired paired, fun n ordinal => ?_, answers e paired⟩
  have member : n ∈ g.pairedOrdinals x.columns rows :=
    List.mem_filterMap.mpr ⟨e, paired, ordinal⟩
  have inside := (expandable.allowed counted numbered).1 n member
  obtain ⟨plain, read⟩ := scalars n member _ (List.getElem?_eq_getElem inside)
  exact ⟨_, plain, List.getElem?_eq_getElem inside, read⟩

theorem noted_gives {α : Type} (event : Event) (a : α) (d : Draft) :
    Seal.Gives (do Seal.note event; return a) d a { d with log := d.log ++ [event] } :=
  (Seal.gives_bind _ _ _ _ _).mpr
    ⟨(), _, (Seal.gives_note _ _ _ _).mpr rfl, (Seal.gives_pure _ _ _ _).mpr ⟨rfl, rfl⟩⟩

/-- An INSERT that cannot be expanded stays, and so do the parameters. -/
theorem sealInsert_blocked {x : Insert Nat} (listed : x.columns ≠ [])
    (found : rowsOf? x.source = some rows)
    (blocked : x.columns.any g.active.isDerived = true ∨
      ∃ row ∈ rows, row.length ≠ x.columns.length) (d : Draft) :
    ∃ d', (g.sealInsert x).Gives d x d' ∧ d'.parameters = d.parameters ∧
      d'.aliases = d.aliases := by
  simp only [sealInsert, List.isEmpty_iff, listed, if_false, found]
  split
  · exact ⟨_, noted_gives _ x d, rfl, rfl⟩
  · rename_i underived
    split
    · exact ⟨d, (Seal.gives_pure _ _ _ _).mpr ⟨rfl, rfl⟩, rfl, rfl⟩
    · have narrow : (rows.any fun row => row.length != x.columns.length) = true := by
        rcases blocked with derived | ⟨row, member, narrow⟩
        · exact absurd derived underived
        · exact List.any_eq_true.mpr ⟨row, member, by simpa using narrow⟩
      rw [if_pos narrow]
      exact ⟨_, noted_gives _ x d, rfl, rfl⟩

theorem gives_sealTree_insert {x x' : Insert Nat} {d d' : Draft} :
    (g.sealTree (.insert x)).Gives d (.insert x') d' ↔ (g.sealInsert x).Gives d x' d' := by
  rw [sealTree, Seal.gives_bind]
  constructor
  · rintro ⟨_, _, run, done⟩
    obtain ⟨same, rfl⟩ := (Seal.gives_pure _ _ _ _).mp done
    cases same
    exact run
  · intro run
    exact ⟨x', d', run, (Seal.gives_pure _ _ _ _).mpr ⟨rfl, rfl⟩⟩

/-- The statement that a successful pass over an INSERT that can be expanded leaves, and what it is
bound by. -/
theorem Expandable.expands {x x' : Insert Nat} {statement : Statement} {d : Draft}
    (expandable : g.Expandable x rows) (counted : statement.countAnonymous = bound.mappings.length)
    (numbered : statement.number.1 = .insert x) (inputs : g.inputs = bound.mappings)
    (fresh : supply.Fresh bound) (run : (g.sealInsert x).Gives (draftOf bound supply) x' d)
    (unaliased : d.aliases = []) :
    ∃ rows', x' = { x with
        columns := g.identsExpanded x.columns rows
        source := withRows rows' x.source } ∧
      g.Expands bound x rows rows' x'
        ⟨d.parameters.toBound (Statement.insert x').restore.render, d.aliases⟩ := by
  have pass : (g.sealTree statement.number.1).Gives (draftOf bound supply) (.insert x') d :=
    numbered ▸ gives_sealTree_insert.mpr run
  obtain ⟨start, once⟩ := Stage.initial_aligned supply counted.symm
  have aligned : (Statement.insert x').origins = d.parameters.origins :=
    ((sealTree_reaches pass).aligned start once).1
  have placeholders := (sealTree_trace statement.once_number pass).1
  have written : g.written (.insert x) = g.pairedOrdinals x.columns rows :=
    expandable.written.trans (rowsWritten_eq expandable.wide)
  rw [statement.origins_number, counted, numbered, written] at placeholders
  obtain ⟨_, ledger⟩ := sealTree_ledger fresh inputs pass
  obtain ⟨parts, mappings, expanded, -⟩ :=
    sealTree_mappings fresh inputs pass (Statement.insert x').restore.render
  rw [numbered] at expanded
  obtain ⟨rows', cells, same⟩ := expandable.expanded run
  refine ⟨rows', same, cells, rfl, placeholders,
    ⟨(List.range bound.mappings.length).map parts, ?_, ?_⟩, ?_, ledger.object, unaliased⟩
  · rw [Parameters.toBound, mappings, List.flatMap_def]
  · rw [List.range_eq_range', ← List.zipIdx_map_snd 0 bound.mappings, List.map_map,
      List.forall₂_map_right_iff]
    refine List.forall₂_same.mpr fun place member => ?_
    have input := List.mem_zipIdx_iff_getElem?.mp member
    exact mappingsAt_of_expanded expandable (expanded place.2 place.1 input)
  · rw [aligned]
    simp [Parameters.origins, Parameters.toBound, Parameters.mappings]

end Sealing

/-- A pass over an INSERT with a column list and rows of values. If a column of the list is derived
or a row is not as wide as the list, nothing changes; otherwise, if the handler does not fail and no
placeholder that is sealed is bound to an array or an object, the pass succeeds and gives the
columns, the rows and the mappings that the positions say. -/
theorem insert_expands (active : ActiveColumns) (handler : Handler) (options : SealOptions)
    (resultMaps : List ResultMap) (bound : BoundStatement) (statement : Statement)
    (supply : Supply) (x : Insert Nat) (recursive : Bool) (ctes : List (Cte Nat)) (rowWord : Bool)
    (rows : List (List (Expr Nat))) (clauses : List (Expr Nat))
    (counted : statement.countAnonymous = bound.mappings.length)
    (numbered : statement.number.1 = .insert x) (listed : x.columns ≠ [])
    (values : x.source = some ⟨recursive, ctes, .values rowWord rows, clauses⟩) :
    let g : Sealing := ⟨active, handler, options, resultMaps, bound.mappings⟩
    let result := (sealBound active handler options resultMaps bound statement supply).1
    ((x.columns.any active.isDerived = true ∨ ∃ row ∈ rows, row.length ≠ x.columns.length) →
      result = .ok ⟨{ bound with sql := statement.render }, []⟩) ∧
    (x.columns.any active.isDerived = false → (∀ row ∈ rows, row.length = x.columns.length) →
      supply.Fresh bound →
      (∀ n ∈ g.pairedOrdinals x.columns rows, ∀ m, bound.mappings[n]? = some m →
        ∃ plain, ((Parameters.ofBound bound).valueOf m).plain? = some plain) →
      (∀ e ∈ g.pairedCells x.columns rows, ∀ text ∈ Sealing.cellText? bound e,
        handler.Answers text) →
      ∃ rows' sealed, result = .ok sealed ∧ g.Expands bound x rows rows' { x with
        columns := g.identsExpanded x.columns rows
        source := some ⟨recursive, ctes, .values rowWord rows', clauses⟩ } sealed) := by
  intro g result
  have rowsOf : Sealing.rowsOf? x.source = some rows := by
    rw [values]
    rfl
  constructor
  · intro blocked
    obtain ⟨d, run, parameters, aliases⟩ :=
      Sealing.sealInsert_blocked (g := g) listed rowsOf blocked (Sealing.draftOf bound supply)
    have pass :
        (g.sealTree statement.number.1).Gives (Sealing.draftOf bound supply) (.insert x) d :=
      numbered ▸ Sealing.gives_sealTree_insert.mpr run
    have still : (Parameters.ofBound bound).toBound statement.render =
        { bound with sql := statement.render } :=
      congrArg (fun b : BoundStatement => { b with sql := statement.render })
        (Parameters.toBound_ofBound bound)
    have done := sealBound_emits counted pass
    rw [← numbered, statement.restore_number, parameters, aliases] at done
    exact done.trans (congrArg (fun b => Except.ok (Sealed.mk b [])) still)
  · intro underived wide fresh scalars answers
    have expandable : g.Expandable x rows := ⟨listed, rowsOf, underived, wide⟩
    have ready := expandable.ready counted numbered scalars answers
    obtain ⟨-, allowed⟩ := expandable.allowed counted numbered
    obtain ⟨x', d, part, run, -, -, aliases⟩ := expandable.succeeds fresh rfl ready []
      (Sealing.draftOf bound supply) _ allowed (Sealing.ledger_start fresh)
    have pass : (g.sealTree statement.number.1).Gives (Sealing.draftOf bound supply) (.insert x')
        d := numbered ▸ Sealing.gives_sealTree_insert.mpr run
    have succeeded := sealBound_emits counted pass
    obtain ⟨rows', rfl, expands⟩ := expandable.expands counted numbered rfl fresh run aliases
    have source : Sealing.withRows rows' x.source =
        some ⟨recursive, ctes, .values rowWord rows', clauses⟩ := by
      rw [values]
      rfl
    rw [source] at expands succeeded
    exact ⟨rows', _, succeeded, expands⟩

namespace Sample

def cells : List (Expr Nat) :=
  [.value (.placeholder (.numbered 0)), .value (.placeholder (.numbered 1))]

def numberedInsert : Insert Nat :=
  ⟨⟨false, none, none, false, false, true, false⟩, [.bare "users"], none,
    [.bare "id", .bare "email"], some ⟨false, [], .values false [cells], []⟩,
    [], none, .none, [], none, []⟩

theorem answers (text : String) : handler.Answers text :=
  ⟨fun _ => ⟨_, rfl⟩, ⟨_, rfl⟩⟩

end Sample

open Sample in
theorem insert_expands_users : statement.countAnonymous = bound.mappings.length ∧
    statement.number.1 = .insert numberedInsert ∧ numberedInsert.columns ≠ [] ∧
    sealing.identsExpanded numberedInsert.columns [cells] =
      [.bare "id", .bare "email_enc", .bare "email_idx"] ∧
    sealing.pairedOrdinals numberedInsert.columns [cells] = [1] ∧
    ∃ rows' sealed,
      (sealBound active handler ⟨true, false⟩ [] bound statement supply).1 = .ok sealed ∧
      sealing.Expands bound numberedInsert [cells] rows' { numberedInsert with
        columns := sealing.identsExpanded numberedInsert.columns [cells]
        source := some ⟨false, [], .values false rows', []⟩ } sealed := by
  have listed : numberedInsert.columns ≠ [] := List.cons_ne_nil _ _
  have ordinals : sealing.pairedOrdinals numberedInsert.columns [cells] = [1] := by rfl
  refine ⟨rfl, rfl, listed, by rfl, ordinals, ?_⟩
  refine (insert_expands active handler ⟨true, false⟩ [] bound statement supply numberedInsert false
    [] false [cells] [] rfl rfl listed rfl).2 (by rfl) ?_ fresh ?_ fun _ _ text _ => answers text
  · intro row member
    rw [List.mem_singleton.mp member]
    rfl
  · intro n member m input
    obtain rfl := List.mem_singleton.mp (ordinals ▸ member)
    cases input
    exact ⟨some "a@x", by rfl⟩

end SealedColumns
