import Mathlib.Data.List.Flatten
import SealedColumns.Proofs.Store.Values
import SealedColumns.Proofs.Write

/-!
Sealing an INSERT into a table: each row is sealed value by value, and what its placeholders are
bound to afterwards makes it the sealed form of the plain row.
-/
namespace SealedColumns.Store

open Sql Sealing

/-- Sealing that puts the target and the index column in the place of each source column of a
layout. -/
structure Replaces (g : Sealing) (table : String) (columns : List SensitiveColumn) : Prop where
  layout : Layout table columns
  resolved : ∀ c, c ∈ g.active.columns ↔ c ∈ columns
  overwrite : g.options.overwrite = true
  source : g.options.writeSource = false
  unmapped : g.resultMaps = []

def Entry.literal? : Entry Nat → Option String
  | .string text => some text
  | .number text _ => some text
  | _ => none

/-- What stands for a value in a target and in an index column. -/
inductive EntryPair (handler : Handler) : Entry Nat → Entry Nat → Entry Nat → Prop where
  | placeholder {n : Nat} :
      EntryPair handler (.placeholder (some n)) (.placeholder none) (.placeholder none)
  | literal {e : Entry Nat} {plain : String} {sealed : String × String} : e.literal? = some plain →
      Literals handler plain sealed → EntryPair handler e (.string sealed.1) (.string sealed.2)
  | null : EntryPair handler .null .null .null

/-- The entries of a row with the sensitive columns that they are written to, and the row sealed. -/
inductive RowPaired (handler : Handler) :
    List (Entry Nat × Option SensitiveColumn) → List (Entry Nat) → Prop where
  | nil : RowPaired handler [] []
  | kept {e : Entry Nat} {pairs : List (Entry Nat × Option SensitiveColumn)}
      {es : List (Entry Nat)} : RowPaired handler pairs es →
        RowPaired handler ((e, none) :: pairs) (e :: es)
  | pair {e target index : Entry Nat} {c : SensitiveColumn}
      {pairs : List (Entry Nat × Option SensitiveColumn)} {es : List (Entry Nat)} :
      EntryPair handler e target index → RowPaired handler pairs es →
        RowPaired handler ((e, some c) :: pairs) (target :: index :: es)

abbrev RowsPaired (handler : Handler) (columns : List SensitiveColumn) (names : List String) :
    List (List (Entry Nat)) → List (List (Entry Nat)) → Prop :=
  List.Forall₂ fun row row' => RowPaired handler (row.zip (slotsOf columns names)) row'

/-- The ordinal of an entry that is written to a sensitive column. -/
def writtenOf (pair : Entry Nat × Option SensitiveColumn) : List Nat :=
  if pair.2.isSome then pair.1.ordinals else []

def rowsWritten (columns : List SensitiveColumn) (names : List String)
    (rows : List (List (Entry Nat))) : List Nat :=
  rows.flatMap fun row => (row.zip (slotsOf columns names)).flatMap writtenOf

def sealedNames (columns : List SensitiveColumn) (names : List String) : List String :=
  names.flatMap fun name =>
    match sensitive? columns name with
    | some c => [c.target, c.index]
    | none => [name]

/-- Rows that can be sealed: as wide as the names, of entries with numbers. -/
structure Wide (names : List String) (rows : List (List (Entry Nat))) : Prop where
  width : ∀ row ∈ rows, row.length = names.length
  numbered : .placeholder none ∉ rows.flatten

section Lists

variable {α β γ : Type}

theorem eq_map_of_forall₂ {f : α → β} {as : List α} {bs : List β}
    (related : List.Forall₂ (fun a b => b = f a) as bs) : bs = as.map f := by
  induction related with
  | nil => rfl
  | cons same _ ih => rw [List.map_cons, ← same, ← ih]

theorem exists_map_of_forall₂ {f : γ → β} {R : α → γ → Prop} {as : List α} {bs : List β}
    (related : List.Forall₂ (fun a b => ∃ c, b = f c ∧ R a c) as bs) :
    ∃ cs, bs = cs.map f ∧ List.Forall₂ R as cs := by
  induction related with
  | nil => exact ⟨[], rfl, .nil⟩
  | cons here _ ih =>
    obtain ⟨c, rfl, first⟩ := here
    obtain ⟨cs, rfl, others⟩ := ih
    exact ⟨c :: cs, rfl, .cons first others⟩

end Lists

section Runs

variable {g : Sealing} {bound : BoundStatement} {supply : Supply} {table : String}
  {columns : List SensitiveColumn} {names : List String} {rows : List (List (Entry Nat))}

theorem sealOperand_placeholder (n : Nat) :
    g.sealOperand (.placeholder n) =
      g.act (.write n) >>= fun _ => pure (Expr.anonymous, Expr.anonymous) := by
  simp only [sealOperand, act, bind_assoc]

theorem sealValue_succeeds (setting : Setting g bound supply) {e : Entry Nat}
    (numbered : e ≠ .placeholder none) :
    g.Succeeds bound supply (g.sealValue e.toExpr) (writing e.ordinals) fun pair =>
      ∃ target index : Entry Nat, pair = (target.toExpr, index.toExpr) ∧
        EntryPair g.handler e target index := by
  have literal : ∀ plain, e.literal? = some plain →
      g.Succeeds bound supply (g.sealOperand (.literal plain)) [] fun pair =>
        ∃ target index : Entry Nat, pair = (target.toExpr, index.toExpr) ∧
          EntryPair g.handler e target index := fun plain known =>
    (setting.sealText plain).wrap fun sealed literals =>
      ⟨.string sealed.1, .string sealed.2, rfl, .literal known literals⟩
  cases e with
  | placeholder ordinal =>
    cases ordinal with
    | none => exact absurd rfl numbered
    | some n =>
      have run : g.sealValue (Entry.placeholder (some n)).toExpr = g.sealOperand (.placeholder n) :=
        rfl
      rw [run, sealOperand_placeholder]
      exact (setting.act (.write n)).wrap fun _ _ => ⟨_, _, rfl, .placeholder⟩
  | string text => exact literal text rfl
  | number text long => exact literal text rfl
  | null => exact Succeeds.pure ⟨.null, .null, rfl, .null⟩

theorem expand_succeeds (setting : Setting g bound supply) (replaces : Replaces g table columns)
    {pairs : List (Entry Nat × Option SensitiveColumn)}
    (numbered : ∀ pair ∈ pairs, pair.1 ≠ .placeholder none) :
    g.Succeeds bound supply
      (expand g.options.writeSource (fun _ e => g.sealValue e)
        (pairs.map fun pair => (pair.1.toExpr, pair.2)))
      (writing (pairs.flatMap writtenOf)) fun es =>
        ∃ row : List (Entry Nat), es = row.map Entry.toExpr ∧ RowPaired g.handler pairs row := by
  induction pairs with
  | nil => exact Succeeds.pure ⟨[], rfl, .nil⟩
  | cons pair pairs ih =>
    obtain ⟨e, slot⟩ := pair
    have others := ih fun pair member => numbered pair (List.mem_cons_of_mem _ member)
    cases slot with
    | none =>
      refine others.wrap ?_
      rintro es ⟨row, rfl, paired⟩
      exact ⟨e :: row, rfl, .kept paired⟩
    | some c =>
      have first := sealValue_succeeds setting (numbered _ List.mem_cons_self)
      rw [List.flatMap_cons, writing_append, List.map_cons, expand]
      simp only [replaces.source, Bool.false_eq_true, if_false] at others ⊢
      refine first.bind ?_
      rintro pair ⟨target, index, rfl, here⟩
      refine others.wrap ?_
      rintro es ⟨row, rfl, paired⟩
      exact ⟨target :: index :: row, rfl, .pair here paired⟩

theorem isSome_ofExpr? {e : Entry Nat} (numbered : e ≠ .placeholder none) :
    (Operand.ofExpr? e.toExpr).isSome = true := by
  cases e with
  | placeholder ordinal =>
    cases ordinal with
    | none => exact absurd rfl numbered
    | some n => rfl
  | _ => rfl

theorem isSupportedAt_wide (wide : Wide names rows) {position : Nat}
    (inside : position < names.length) :
    isSupportedAt (rows.map (·.map Entry.toExpr)) position = true := by
  simp only [isSupportedAt, List.all_map, List.all_eq_true, Function.comp_apply]
  intro row member
  have here : position < row.length := by rw [wide.width row member]; exact inside
  have numbered : row[position] ≠ .placeholder none := fun same =>
    wide.numbered (List.mem_flatten.mpr ⟨row, member, same ▸ List.getElem_mem here⟩)
  simp only [List.getElem?_map, List.getElem?_eq_getElem here, Option.map_some, Option.bind_some,
    isSome_ofExpr? numbered]

theorem columnSlots_succeeds (replaces : Replaces g table columns)
    (plain : ∀ name ∈ names, Plain name) (wide : Wide names rows) :
    g.Succeeds bound supply
      ((names.map Ident.bare).zipIdx.mapM fun (ident, position) =>
        g.columnSlot (rows.map (·.map Entry.toExpr)) position ident)
      [] fun slots => slots = slotsOf columns names := by
  have each : ∀ pair ∈ (names.map Ident.bare).zipIdx,
      g.Succeeds bound supply (g.columnSlot (rows.map (·.map Entry.toExpr)) pair.2 pair.1) []
        fun slot => slot = g.active.get? pair.1 := by
    rintro ⟨ident, position⟩ member
    have inside : position < names.length := by
      simpa using List.snd_lt_of_mem_zipIdx member
    unfold columnSlot
    cases found : g.active.get? ident with
    | none => exact Succeeds.pure rfl
    | some c =>
      simp only [isSupportedAt_wide wide inside, if_true]
      exact Succeeds.pure rfl
  have none : (names.map Ident.bare).zipIdx.flatMap (fun _ => ([] : List Act)) = [] :=
    List.flatMap_eq_nil_iff.mpr fun _ _ => rfl
  have all := Succeeds.mapM each
  rw [none] at all
  refine all.weaken fun slots related => ?_
  have looked : (names.map Ident.bare).zipIdx.map (fun pair => g.active.get? pair.1) =
      ((names.map Ident.bare).zipIdx.map Prod.fst).map g.active.get? := by
    rw [List.map_map]
    rfl
  rw [eq_map_of_forall₂ related, looked, List.zipIdx_map_fst, List.map_map]
  exact List.map_congr_left fun name member =>
    replaces.layout.get? replaces.resolved (plain name member)

theorem expandColumns_names (replaces : Replaces g table columns) (names : List String) :
    g.expandColumns (names.map Ident.bare) (slotsOf columns names) =
      (sealedNames columns names).map Ident.bare := by
  unfold expandColumns
  rw [replaces.source]
  induction names with
  | nil => rfl
  | cons name names ih =>
    simp only [slotsOf, sealedNames, List.map_cons, List.zip_cons_cons, List.flatMap_cons] at ih ⊢
    cases sensitive? columns name with
    | none => exact congrArg (List.cons (Ident.bare name)) ih
    | some c =>
      exact congrArg (fun rest => Ident.bare c.target :: Ident.bare c.index :: rest) ih

theorem sealRows_succeeds (setting : Setting g bound supply) (replaces : Replaces g table columns)
    (wide : Wide names rows) :
    g.Succeeds bound supply
      ((rows.map (·.map Entry.toExpr)).mapM (g.sealRow (slotsOf columns names)))
      (writing (rowsWritten columns names rows)) fun sealedRows =>
        ∃ rows' : List (List (Entry Nat)), sealedRows = rows'.map (·.map Entry.toExpr) ∧
          RowsPaired g.handler columns names rows rows' := by
  have each : ∀ row ∈ rows, g.Succeeds bound supply
      (g.sealRow (slotsOf columns names) (row.map Entry.toExpr))
      (writing ((row.zip (slotsOf columns names)).flatMap writtenOf)) fun es =>
        ∃ row' : List (Entry Nat), es = row'.map Entry.toExpr ∧
          RowPaired g.handler (row.zip (slotsOf columns names)) row' := by
    intro row member
    rw [sealRow, List.zip_map_left]
    refine expand_succeeds setting replaces fun pair inside same => ?_
    exact wide.numbered (List.mem_flatten.mpr ⟨row, member, same ▸ (List.of_mem_zip inside).1⟩)
  have flat : writing (rowsWritten columns names rows) = rows.flatMap fun row =>
      writing ((row.zip (slotsOf columns names)).flatMap writtenOf) := List.map_flatMap
  rw [List.mapM_map, flat]
  exact (Succeeds.mapM each).weaken fun _ related => exists_map_of_forall₂ related

theorem rowPaired_plain (none : ∀ name ∈ names, sensitive? columns name = none)
    {row : List (Entry Nat)} (width : row.length = names.length) (handler : Handler) :
    RowPaired handler (row.zip (slotsOf columns names)) row ∧
      (row.zip (slotsOf columns names)).flatMap writtenOf = [] := by
  induction row generalizing names with
  | nil => exact ⟨.nil, rfl⟩
  | cons e row ih =>
    cases names with
    | nil => cases width
    | cons name names =>
      have others : ∀ other ∈ names, sensitive? columns other = Option.none := fun other member =>
        none other (List.mem_cons_of_mem _ member)
      obtain ⟨paired, written⟩ := ih others (Nat.succ.inj width)
      simp only [slotsOf, List.map_cons, none name List.mem_cons_self, List.zip_cons_cons,
        List.flatMap_cons] at paired written ⊢
      exact ⟨.kept paired, written⟩

theorem sealedNames_plain (none : ∀ name ∈ names, sensitive? columns name = none) :
    sealedNames columns names = names := by
  induction names with
  | nil => rfl
  | cons name names ih =>
    have others := ih fun other member => none other (List.mem_cons_of_mem _ member)
    simp only [sealedNames, List.flatMap_cons, none name List.mem_cons_self] at others ⊢
    rw [others]
    rfl

/-- An INSERT with its rows and names sealed. -/
def InsertSealed (handler : Handler) (table : String) (columns : List SensitiveColumn)
    (rowWord : Bool) (names : List String) (rows : List (List (Entry Nat))) (x : Insert Nat) :
    Prop :=
  ∃ rows', x = insertOf table rowWord (sealedNames columns names) rows' ∧
    RowsPaired handler columns names rows rows'

theorem sealInsert_succeeds (setting : Setting g bound supply) (replaces : Replaces g table columns)
    (rowWord : Bool) (some : names ≠ [])
    (plain : ∀ name ∈ names, Plain name ∧ ¬ Derived columns name) (wide : Wide names rows) :
    g.Succeeds bound supply (g.sealInsert (insertOf table rowWord names rows))
      (writing (rowsWritten columns names rows))
      (InsertSealed g.handler table columns rowWord names rows) := by
  have listed : (names.map Ident.bare).isEmpty = false := by
    simpa using some
  have underived : (names.map Ident.bare).any g.active.isDerived = false := by
    rw [List.any_map, List.any_eq_false]
    intro name member derived
    have known := plain name member
    exact known.2 ((replaces.layout.isDerived replaces.resolved known.1).mp derived)
  have filled : (rows.map (·.map Entry.toExpr)).any
      (fun row => row.length != (names.map Ident.bare).length) = false := by
    rw [List.any_map, List.any_eq_false]
    intro row member
    simp [wide.width row member]
  simp only [sealInsert, insertOf, listed, underived, Bool.false_eq_true, if_false, rowsOf?, filled]
  split
  · rename_i unnamed
    have none : ∀ name ∈ names, sensitive? columns name = none := by
      rw [List.all_map, List.all_eq_true] at unnamed
      intro name member
      have known := unnamed name member
      rwa [Function.comp_apply, replaces.layout.get? replaces.resolved (plain name member).1,
        Option.isNone_iff_eq_none] at known
    have unwritten : rowsWritten columns names rows = [] :=
      List.flatMap_eq_nil_iff.mpr fun row member =>
        (rowPaired_plain none (wide.width row member) g.handler).2
    rw [unwritten]
    refine Succeeds.pure ⟨rows, by rw [sealedNames_plain none]; rfl, ?_⟩
    exact List.forall₂_same.mpr fun row member =>
      (rowPaired_plain none (wide.width row member) g.handler).1
  · rw [← List.nil_append (writing (rowsWritten columns names rows))]
    refine (columnSlots_succeeds replaces (fun name member => (plain name member).1) wide).bind
      fun slots same => ?_
    subst same
    refine (sealRows_succeeds setting replaces wide).wrap fun sealedRows sealed => ?_
    obtain ⟨rows', rfl, paired⟩ := sealed
    exact ⟨rows', by rw [expandColumns_names replaces]; rfl, paired⟩

end Runs

/-! What the placeholders of the sealed rows are bound to. -/

section Values

variable {g : Sealing} {used : String → Prop} {columns : List SensitiveColumn}
  {ρ : Nat → Json} {values : Nat → List Json}

/-- The values in the place of an entry: its own, or ciphertext and index if it is written to a
sensitive column. -/
structure PairStands (g : Sealing) (used : String → Prop) (ρ : Nat → Json)
    (values : Nat → List Json) (pair : Entry Nat × Option SensitiveColumn) : Prop where
  numbered : pair.1 ≠ .placeholder none
  kept : pair.2 = none → ∀ n ∈ pair.1.ordinals, values n = [ρ n]
  written : pair.2.isSome → ∀ n ∈ pair.1.ordinals, ∃ plain cipher key,
    (ρ n).plain? = some plain ∧ g.Pair plain cipher key ∧ values n = [cipher, key]
  used : pair.2.isSome → ∀ text, (pair.1.cell ρ).plain? = some (some text) → used text

theorem Pair.covers (reliable : g.handler.Reliable) {plain : Option String} {cipher key : Json}
    (pair : g.Pair plain cipher key) (known : ∀ text, plain = some text → used text) :
    Covers g.handler used plain cipher key := by
  cases pair with
  | null => exact .null
  | @text plain cipher key supply encrypted indexed =>
    exact .text (known plain rfl) (reliable.decrypts plain supply cipher encrypted) indexed

theorem PairStands.take {e : Entry Nat} (stands : PairStands g used ρ values (e, none))
    (rest : List Json) : e.take (e.ordinals.flatMap values ++ rest) = (e.cell ρ, rest) := by
  have same : e.ordinals.flatMap values = e.ordinals.map ρ := by
    have kept := stands.kept rfl
    rw [List.flatMap_congr kept]
    exact List.flatMap_pure_eq_map ρ e.ordinals
  rw [same, Entry.take_numbered stands.numbered]

theorem EntryPair.take (reliable : g.handler.Reliable) {e target index : Entry Nat}
    {c : SensitiveColumn} (pair : EntryPair g.handler e target index)
    (stands : PairStands g used ρ values (e, some c)) :
    ∃ plain cipher key, (e.cell ρ).plain? = some plain ∧ Covers g.handler used plain cipher key ∧
      ∀ rest es, threadList Entry.take (target :: index :: es) (e.ordinals.flatMap values ++ rest) =
        (cipher :: key :: (threadList Entry.take es rest).1,
          (threadList Entry.take es rest).2) := by
  have known := stands.used rfl
  cases pair with
  | @placeholder n =>
    obtain ⟨plain, cipher, key, read, pair, held⟩ := stands.written rfl n List.mem_cons_self
    refine ⟨plain, cipher, key, read, Pair.covers reliable pair fun text same => ?_, ?_⟩
    · exact known text (same ▸ read)
    · intro rest es
      simp [Entry.ordinals, held, threadList, Entry.take]
  | @literal _ plain sealed written literals =>
    have cell : e.cell ρ = .string plain ∧ e.ordinals = [] := by
      cases e <;> cases written <;> exact ⟨rfl, rfl⟩
    refine ⟨some plain, .string sealed.1, .string sealed.2, by rw [cell.1]; rfl, ?_, ?_⟩
    · exact .text (known plain (by rw [cell.1]; rfl)) literals.decrypted literals.indexed
    · intro rest es
      simp [cell.2, threadList, Entry.take]
  | null => exact ⟨none, .null, .null, rfl, .null, fun rest es => rfl⟩

theorem RowPaired.taken (reliable : g.handler.Reliable) {names : List String}
    {row es : List (Entry Nat)} (width : row.length = names.length)
    (underived : ∀ name ∈ names, ¬ Derived columns name)
    (stands : ∀ pair ∈ row.zip (slotsOf columns names), PairStands g used ρ values pair)
    (paired : RowPaired g.handler (row.zip (slotsOf columns names)) es) :
    ∃ cells, RowSealed g.handler used columns names (row.map (Entry.cell ρ))
        (sealedNames columns names) cells ∧
      ∀ rest, threadList Entry.take es ((row.flatMap Entry.ordinals).flatMap values ++ rest) =
        (cells, rest) := by
  -- On the row; what is left of the values behind an entry is for the entries behind it.
  induction row generalizing names es with
  | nil =>
    cases names with
    | nil =>
      cases paired with
      | nil => exact ⟨[], .nil, fun _ => rfl⟩
    | cons name names => cases width
  | cons e row ih =>
    cases names with
    | nil => cases width
    | cons name names =>
      have narrow := Nat.succ.inj width
      have others := fun other member => underived other (List.mem_cons_of_mem _ member)
      simp only [slotsOf, List.map_cons, List.zip_cons_cons, List.forall_mem_cons] at stands paired
      cases known : sensitive? columns name with
      | none =>
        rw [known] at stands paired
        cases paired with
        | kept paired =>
          obtain ⟨cells, rowSealed, taken⟩ := ih narrow others stands.2 paired
          refine ⟨e.cell ρ :: cells, ?_, fun rest => ?_⟩
          · simp only [sealedNames, List.flatMap_cons, known]
            exact .kept ⟨known, underived name List.mem_cons_self⟩ rowSealed
          · simp only [List.flatMap_cons, List.flatMap_append, List.append_assoc, threadList,
              stands.1.take, taken]
      | some c =>
        rw [known] at stands paired
        obtain ⟨inside, rfl⟩ := sensitive?_some known
        cases paired with
        | pair here paired =>
          obtain ⟨cells, rowSealed, taken⟩ := ih narrow others stands.2 paired
          obtain ⟨plain, cipher, key, read, covers, both⟩ := here.take reliable stands.1
          refine ⟨cipher :: key :: cells, ?_, fun rest => ?_⟩
          · simp only [sealedNames, List.flatMap_cons, known]
            exact .covered inside read covers rowSealed
          · simp only [List.flatMap_cons, List.flatMap_append, List.append_assoc, both, taken]

theorem rows_taken (reliable : g.handler.Reliable) {names : List String}
    {rows rows' : List (List (Entry Nat))} (width : ∀ row ∈ rows, row.length = names.length)
    (underived : ∀ name ∈ names, ¬ Derived columns name)
    (stands : ∀ row ∈ rows, ∀ pair ∈ row.zip (slotsOf columns names),
      PairStands g used ρ values pair)
    (paired : RowsPaired g.handler columns names rows rows') :
    ∃ cells, List.Forall₂
        (fun row cells =>
          RowSealed g.handler used columns names row (sealedNames columns names) cells)
        (rows.map (·.map (Entry.cell ρ))) cells ∧
      ∀ rest, threadList (threadList Entry.take) rows'
          ((rows.flatten.flatMap Entry.ordinals).flatMap values ++ rest) = (cells, rest) := by
  induction paired with
  | nil => exact ⟨[], .nil, fun _ => rfl⟩
  | @cons row row' rows rows' here _ ih =>
    rw [List.forall_mem_cons] at width stands
    obtain ⟨first, rowSealed, taken⟩ := here.taken reliable width.1 underived stands.1
    obtain ⟨cells, rowsSealed, others⟩ := ih width.2 stands.2
    refine ⟨first :: cells, .cons rowSealed rowsSealed, fun rest => ?_⟩
    simp only [List.flatten_cons, List.flatMap_append, List.append_assoc, threadList, taken, others]

end Values

section Insertion

variable {g : Sealing} {bound : BoundStatement} {supply : Supply} {used : String → Prop}
  {table : String} {columns : List SensitiveColumn} {names : List String}
  {rows rows' : List (List (Entry Nat))} {d : Draft} {part : Nat → List Slot}

theorem Wide.ordinals (wide : Wide names rows) (row : List (Entry Nat)) (member : row ∈ rows) :
    (row.zip (slotsOf columns names)).flatMap (fun p => p.1.ordinals) =
      row.flatMap Entry.ordinals := by
  have width : row.length ≤ (slotsOf columns names).length := by
    rw [slotsOf, List.length_map, wide.width row member]
  rw [← List.flatMap_map (f := Prod.fst), List.map_fst_zip width]

theorem rowsWritten_sublist (wide : Wide names rows) :
    (rowsWritten columns names rows).Sublist (rows.flatten.flatMap Entry.ordinals) := by
  rw [← List.flatMap_id, List.flatMap_assoc]
  refine List.Sublist.flatMap_right rows fun row member => ?_
  rw [id, ← wide.ordinals row member]
  refine List.Sublist.flatMap_right _ fun pair _ => ?_
  unfold writtenOf
  split
  · exact .refl _
  · exact List.nil_sublist _

/-- No ordinal stands at two places, so one that is not written to a sensitive column is none of
those that are. -/
theorem not_mem_rowsWritten (wide : Wide names rows)
    (single : (rows.flatten.flatMap Entry.ordinals).Nodup) {row : List (Entry Nat)}
    (member : row ∈ rows) {e : Entry Nat} (inside : (e, none) ∈ row.zip (slotsOf columns names))
    {n : Nat} (here : n ∈ e.ordinals) : n ∉ rowsWritten columns names rows := by
  have whole : ((rows.flatMap (·.zip (slotsOf columns names))).flatMap
      fun p => p.1.ordinals).Nodup := by
    rw [List.flatMap_assoc, List.flatMap_congr wide.ordinals]
    rwa [← List.flatMap_id, List.flatMap_assoc] at single
  intro written
  obtain ⟨row', member', written⟩ := List.mem_flatMap.mp written
  obtain ⟨⟨e', slot⟩, inside', written⟩ := List.mem_flatMap.mp written
  cases slot with
  | none => cases written
  | some c =>
    have same := eq_of_mem_flatMap whole (List.mem_flatMap.mpr ⟨row, member, inside⟩)
      (List.mem_flatMap.mpr ⟨row', member', inside'⟩) here written
    cases same

theorem rows_stand (setting : Setting g bound supply) (replaces : Replaces g table columns)
    (ledger : Ledger g bound supply (writing (rowsWritten columns names rows)) d part)
    (wide : Wide names rows)
    (ordinals : rows.flatten.flatMap Entry.ordinals = List.range bound.mappings.length)
    (known : ∀ text ∈ sensitiveTexts columns
      (.insert false names (rows.map (·.map (Entry.cell (valueAt bound))))), used text)
    {row : List (Entry Nat)} (member : row ∈ rows) {pair : Entry Nat × Option SensitiveColumn}
    (inside : pair ∈ row.zip (slotsOf columns names)) :
    PairStands g used (valueAt bound) (valuesAt d part) pair := by
  obtain ⟨e, slot⟩ := pair
  have entry := (List.of_mem_zip inside).1
  have numbered : e ∈ rows.flatten := List.mem_flatten.mpr ⟨row, member, entry⟩
  have low : ∀ n ∈ e.ordinals, n < bound.mappings.length := fun n here =>
    List.mem_range.mp (ordinals ▸ List.mem_flatMap.mpr ⟨e, numbered, here⟩)
  refine ⟨fun same => wide.numbered (same ▸ numbered), ?_, ?_, ?_⟩
  · rintro rfl n here
    have unwritten := not_mem_rowsWritten wide (ordinals ▸ List.nodup_range) member inside here
    refine values_kept ledger setting.fresh (low n here) fun a acted same => ?_
    obtain ⟨m, written, rfl⟩ := mem_writing.mp acted
    exact unwritten (same ▸ written)
  · intro some n here
    have written : n ∈ rowsWritten columns names rows :=
      List.mem_flatMap.mpr ⟨row, member,
        List.mem_flatMap.mpr ⟨_, inside, by simp [writtenOf, some, here]⟩⟩
    refine values_written ledger setting.fresh replaces.source (low n here)
      (mem_writing.mpr ⟨n, written, rfl⟩) fun compared => ?_
    obtain ⟨m, -, other⟩ := mem_writing.mp compared
    cases other
  · intro some text read
    refine known text (List.mem_flatMap.mpr ⟨_, List.mem_map_of_mem member, ?_⟩)
    rw [List.zip_map_left, List.flatMap_map]
    exact List.mem_flatMap.mpr ⟨_, inside, by simp [textsOf, some, read]⟩

/-- The request that the sealed statement makes, bound to the values of the pass, is the sealed form
of the plain request. -/
theorem insertion_sealed (setting : Setting g bound supply) (replaces : Replaces g table columns)
    (rowWord : Bool)
    (ledger : Ledger g bound supply (writing (rowsWritten columns names rows)) d part)
    (underived : ∀ name ∈ names, ¬ Derived columns name) (wide : Wide names rows)
    (ordinals : rows.flatten.flatMap Entry.ordinals = List.range bound.mappings.length)
    (known : ∀ text ∈ sensitiveTexts columns
      ((Request.insert rowWord names rows).bind (valuesOf bound)), used text)
    (paired : RowsPaired g.handler columns names rows rows')
    (sql : String) :
    RequestSealed g.handler used columns
      ((Request.insert rowWord names rows).bind (valuesOf bound))
      ((Request.insert rowWord (sealedNames columns names) rows').bind
        (valuesOf (d.parameters.toBound sql))) := by
  have plain : (Request.insert rowWord names rows).bind (valuesOf bound) =
      .insert rowWord names (rows.map (·.map (Entry.cell (valueAt bound)))) := by
    rw [valuesOf_eq, ← ordinals]
    exact Request.bind_numbered wide.numbered
  rw [plain] at known ⊢
  have stands : ∀ row ∈ rows, ∀ pair ∈ row.zip (slotsOf columns names), PairStands .. :=
    fun row member pair inside =>
      rows_stand setting replaces ledger wide ordinals known member inside
  obtain ⟨cells, rowsSealed, taken⟩ :=
    rows_taken setting.reliable wide.width underived stands paired
  have sealed := taken []
  rw [List.append_nil, ordinals, ← valuesOf_toBound ledger sql] at sealed
  simp only [Request.bind, Request.thread, sealed]
  exact .insert rowsSealed

end Insertion

end SealedColumns.Store
