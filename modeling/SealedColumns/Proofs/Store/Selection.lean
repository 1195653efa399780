import SealedColumns.Proofs.Compare
import SealedColumns.Proofs.Store.Insertion
import SealedColumns.Proofs.Store.Reveal

/-!
Sealing a SELECT from a table: sensitive columns are read from their targets and compared by their
indexes, and what the placeholders are bound to afterwards makes it the sealed form of the plain
request.
-/
namespace SealedColumns.Store

open Sql Sealing

/-- What an entry is compared with an index column as. -/
inductive EntryIndexed (handler : Handler) : Entry Nat → Entry Nat → Prop where
  | placeholder {n : Nat} : EntryIndexed handler (.placeholder (some n)) (.placeholder (some n))
  | literal {e : Entry Nat} {plain key : String} : e.literal? = some plain →
      handler.index plain = .ok key → EntryIndexed handler e (.string key)
  | null : EntryIndexed handler .null .null

inductive AtomIndexed (handler : Handler) (columns : List SensitiveColumn) :
    Atom (Entry Nat) → Atom (Entry Nat) → Prop where
  | kept {a : Atom (Entry Nat)} : sensitive? columns a.column = none →
      AtomIndexed handler columns a a
  | equal {negated flipped : Bool} {name : String} {c : SensitiveColumn} {e e' : Entry Nat} :
      sensitive? columns name = some c → EntryIndexed handler e e' →
        AtomIndexed handler columns (.equal negated flipped name e)
          (.equal negated flipped c.index e')
  | among {negated : Bool} {name : String} {c : SensitiveColumn} {es es' : List (Entry Nat)} :
      sensitive? columns name = some c → List.Forall₂ (EntryIndexed handler) es es' →
        AtomIndexed handler columns (.among negated name es) (.among negated c.index es')
  | isNull {negated : Bool} {name : String} {c : SensitiveColumn} :
      sensitive? columns name = some c →
        AtomIndexed handler columns (.isNull negated name) (.isNull negated c.index)

/-- The ordinals that an atom compares with a sensitive column. -/
def atomCompared (columns : List SensitiveColumn) (a : Atom (Entry Nat)) : List Nat :=
  if (sensitive? columns a.column).isSome then a.entries.flatMap Entry.ordinals else []

def conditionCompared (columns : List SensitiveColumn)
    (condition : Option (Condition (Atom (Entry Nat)))) : List Nat :=
  condition.elim [] fun c => c.atoms.flatMap (atomCompared columns)

section Runs

variable {g : Sealing} {bound : BoundStatement} {supply : Supply} {table : String}
  {columns : List SensitiveColumn} {scope : List String}

theorem indexOperand_succeeds (setting : Setting g bound supply) {e : Entry Nat}
    (numbered : e ≠ .placeholder none) :
    g.Succeeds bound supply (g.indexOperand e.toExpr) (comparing e.ordinals) fun r =>
      ∃ e' : Entry Nat, r.val = e'.toExpr ∧ EntryIndexed g.handler e e' := by
  have value : g.Succeeds bound supply (g.indexValue e.toValue) (comparing e.ordinals) fun v =>
      ∃ e' : Entry Nat, v = e'.toValue ∧ EntryIndexed g.handler e e' := by
    cases e with
    | placeholder ordinal =>
      cases ordinal with
      | none => exact absurd rfl numbered
      | some n => exact (setting.act (.compare n)).wrap fun _ _ => ⟨_, rfl, .placeholder⟩
    | string text =>
      exact (setting.index text).wrap fun key indexed => ⟨.string key, rfl, .literal rfl indexed⟩
    | number text long =>
      exact (setting.index text).wrap fun key indexed => ⟨.string key, rfl, .literal rfl indexed⟩
    | null => exact Succeeds.pure ⟨.null, rfl, .null⟩
  simp only [Entry.toExpr, indexOperand]
  refine value.wrap ?_
  rintro v ⟨e', rfl, indexed⟩
  exact ⟨e', rfl, indexed⟩

theorem indexItems_succeeds (setting : Setting g bound supply) {es : List (Entry Nat)}
    (numbered : .placeholder none ∉ es) :
    g.Succeeds bound supply (g.indexItems (es.map Entry.toExpr))
      (comparing (es.flatMap Entry.ordinals)) fun items =>
        ∃ es', items = es'.map Entry.toExpr ∧ List.Forall₂ (EntryIndexed g.handler) es es' := by
  induction es with
  | nil => exact Succeeds.pure ⟨[], rfl, .nil⟩
  | cons e es ih =>
    rw [List.mem_cons, not_or] at numbered
    rw [List.map_cons, indexItems, List.flatMap_cons, comparing_append]
    refine (indexOperand_succeeds setting (Ne.symm numbered.1)).bind ?_
    rintro r ⟨e', same, here⟩
    refine (ih numbered.2).wrap ?_
    rintro items ⟨es', rfl, later⟩
    exact ⟨e' :: es', by rw [same]; rfl, .cons here later⟩

theorem sensitive?_column (replaces : Replaces g table columns) {name : String}
    (plain : Plain name) (underived : ¬ Derived columns name) :
    g.sensitive? scope (columnExpr name) = sensitive? columns name := by
  have known : g.active.isDerived (.bare name) = false := by
    rw [Bool.eq_false_iff]
    exact fun derived => underived ((replaces.layout.isDerived replaces.resolved plain).mp derived)
  have named : (columnExpr name : Expr Nat).columnName? = some (.bare name) := rfl
  simp only [Sealing.sensitive?, named, known, Bool.false_eq_true, if_false]
  exact replaces.layout.getIn? replaces.resolved scope plain

theorem sealPredicate_column (name : String) :
    g.sealPredicate scope (columnExpr name) = pure (g.readIndex scope (columnExpr name)) := by
  rw [columnExpr, sealPredicate]

theorem sealPredicate_entry (e : Entry Nat) : g.sealPredicate scope e.toExpr = pure e.toExpr := by
  rw [Entry.toExpr, sealPredicate]
  all_goals
    intros
    contradiction

theorem isSensitive_column (scope : List String) (replaces : Replaces g table columns)
    {name : String} (plain : Plain name) (underived : ¬ Derived columns name) :
    g.isSensitive scope (columnExpr name) = (sensitive? columns name).isSome := by
  rw [isSensitive, sensitive?_column replaces plain underived]

theorem readIndex_column (scope : List String) (replaces : Replaces g table columns) {name : String}
    (plain : Plain name) (underived : ¬ Derived columns name) :
    g.readIndex scope (columnExpr name) =
      columnExpr ((sensitive? columns name).elim name SensitiveColumn.index) := by
  rw [readIndex, sensitive?_column replaces plain underived]
  cases sensitive? columns name <;> rfl

theorem isSensitive_entry (e : Entry Nat) : g.isSensitive scope e.toExpr = false := rfl

theorem isSensitive_condition (c : Condition (Atom (Entry Nat))) :
    g.isSensitive scope c.toExpr = false := by
  cases c with
  | atom a =>
    cases a with
    | equal negated flipped column e => cases flipped <;> rfl
    | _ => rfl
  | _ => rfl

theorem sealAtom_kept (scope : List String) (replaces : Replaces g table columns)
    {a : Atom (Entry Nat)} (plain : Plain a.column) (underived : ¬ Derived columns a.column)
    (known : sensitive? columns a.column = none) :
    g.sealPredicate scope a.toExpr = pure a.toExpr := by
  have onColumn := isSensitive_column scope replaces plain underived
  have read := readIndex_column scope replaces plain underived
  rw [known] at onColumn read
  simp only [Option.isSome_none, Option.elim_none] at onColumn read
  cases a with
  | equal negated flipped column e =>
    simp only [Atom.column] at onColumn read
    cases flipped with
    | false =>
      simp only [Atom.toExpr, Bool.false_eq_true, if_false, sealPredicate, onColumn,
        isSensitive_entry, Bool.false_and, indexOperandIf, pure_bind, sealPredicate_column,
        sealPredicate_entry, read]
    | true =>
      simp only [Atom.toExpr, Bool.false_eq_true, if_false, if_true, sealPredicate, onColumn,
        isSensitive_entry, Bool.false_and, indexOperandIf, pure_bind, sealPredicate_column,
        sealPredicate_entry, read]
  | among negated column es =>
    simp only [Atom.column] at onColumn read
    simp only [Atom.toExpr, sealPredicate, onColumn, Bool.false_eq_true, if_false, pure_bind,
      sealPredicate_column, read]
  | isNull negated column =>
    simp only [Atom.column] at read
    simp only [Atom.toExpr, sealPredicate, sealPredicate_column, read, pure_bind]

theorem sealAtom_indexed (setting : Setting g bound supply) (replaces : Replaces g table columns)
    {a : Atom (Entry Nat)} (plain : Plain a.column) (underived : ¬ Derived columns a.column)
    (numbered : .placeholder none ∉ a.entries) {c : SensitiveColumn}
    (known : sensitive? columns a.column = some c) :
    g.Succeeds bound supply (g.sealPredicate scope a.toExpr)
      (comparing (a.entries.flatMap Entry.ordinals)) fun e =>
        ∃ a', e = a'.toExpr ∧ AtomIndexed g.handler columns a a' := by
  have onColumn := isSensitive_column scope replaces plain underived
  have read := readIndex_column scope replaces plain underived
  rw [known] at onColumn read
  simp only [Option.isSome_some, Option.elim_some] at onColumn read
  cases a with
  | equal negated flipped column e =>
    have here : e ≠ .placeholder none := fun same => numbered (same ▸ List.mem_cons_self)
    have indexed := indexOperand_succeeds setting here
    simp only [Atom.column] at onColumn read
    have acts : (Atom.equal negated flipped column e).entries.flatMap Entry.ordinals =
        e.ordinals := List.append_nil _
    rw [acts, ← List.append_nil (comparing _)]
    cases flipped with
    | false =>
      simp only [Atom.toExpr, Bool.false_eq_true, if_false, sealPredicate, onColumn,
        isSensitive_entry, Bool.not_false, Bool.and_true, indexOperandIf, if_true,
        Bool.false_and, pure_bind, sealPredicate_column, read]
      refine indexed.bind ?_
      rintro r ⟨e', same, related⟩
      simp only [same, sealPredicate_entry, pure_bind]
      exact Succeeds.pure ⟨.equal negated false c.index e', rfl, .equal known related⟩
    | true =>
      simp only [Atom.toExpr, Bool.false_eq_true, if_false, sealPredicate, onColumn,
        isSensitive_entry, Bool.not_false, Bool.and_true, indexOperandIf, if_true,
        Bool.false_and, pure_bind, sealPredicate_column, read]
      refine indexed.bind ?_
      rintro r ⟨e', same, related⟩
      simp only [same, sealPredicate_entry, pure_bind]
      exact Succeeds.pure ⟨.equal negated true c.index e', rfl, .equal known related⟩
  | among negated column es =>
    simp only [Atom.column] at onColumn read
    rw [← List.append_nil (comparing _)]
    simp only [Atom.toExpr, sealPredicate, onColumn, if_true, sealPredicate_column, read,
      pure_bind]
    refine (indexItems_succeeds setting numbered).bind ?_
    rintro items ⟨es', rfl, related⟩
    exact Succeeds.pure ⟨.among negated c.index es', rfl, .among known related⟩
  | isNull negated column =>
    simp only [Atom.column] at read
    simp only [Atom.toExpr, sealPredicate, sealPredicate_column, read, pure_bind]
    exact Succeeds.pure ⟨.isNull negated c.index, rfl, .isNull known⟩

/-- An atom is sealed as a whole: its column is read from the index, its values are indexed. -/
theorem sealAtom_succeeds (setting : Setting g bound supply) (replaces : Replaces g table columns)
    {a : Atom (Entry Nat)} (plain : Plain a.column) (underived : ¬ Derived columns a.column)
    (numbered : .placeholder none ∉ a.entries) :
    g.Succeeds bound supply (g.sealPredicate scope a.toExpr)
      (comparing (atomCompared columns a)) fun e =>
        ∃ a', e = a'.toExpr ∧ AtomIndexed g.handler columns a a' := by
  unfold atomCompared
  cases known : sensitive? columns a.column with
  | none =>
    rw [sealAtom_kept scope replaces plain underived known]
    exact Succeeds.pure ⟨a, rfl, .kept known⟩
  | some c => exact sealAtom_indexed setting replaces plain underived numbered known

/-- Conditions that can be sealed: of plain columns, none derived, and entries with numbers. -/
structure Comparable (columns : List SensitiveColumn) (c : Condition (Atom (Entry Nat))) :
    Prop where
  plain : ∀ a ∈ c.atoms, Plain a.column ∧ ¬ Derived columns a.column
  numbered : ∀ a ∈ c.atoms, .placeholder none ∉ a.entries

theorem Comparable.parts {c l r : Condition (Atom (Entry Nat))} (comparable : Comparable columns c)
    (joined : c.atoms = l.atoms ++ r.atoms) : Comparable columns l ∧ Comparable columns r := by
  obtain ⟨plain, numbered⟩ := comparable
  simp only [joined, List.forall_mem_append] at plain numbered
  exact ⟨⟨plain.1, numbered.1⟩, plain.2, numbered.2⟩

theorem sealCondition_succeeds (setting : Setting g bound supply)
    (replaces : Replaces g table columns) {c : Condition (Atom (Entry Nat))}
    (comparable : Comparable columns c) :
    g.Succeeds bound supply (g.sealPredicate scope c.toExpr)
      (comparing (c.atoms.flatMap (atomCompared columns))) fun e =>
        ∃ c', e = c'.toExpr ∧ Condition.Related (AtomIndexed g.handler columns) c c' := by
  induction c with
  | atom a =>
    have here := comparable.plain a List.mem_cons_self
    simp only [Condition.atoms, List.flatMap_cons, List.flatMap_nil, List.append_nil]
    refine (sealAtom_succeeds setting replaces here.1 here.2
      (comparable.numbered a List.mem_cons_self)).weaken ?_
    rintro e ⟨a', rfl, related⟩
    exact ⟨.atom a', rfl, .atom related⟩
  | nested c ih =>
    rw [Condition.toExpr, sealPredicate]
    refine (ih ⟨comparable.plain, comparable.numbered⟩).wrap ?_
    rintro e ⟨c', rfl, related⟩
    exact ⟨.nested c', rfl, .nested related⟩
  | not c ih =>
    rw [Condition.toExpr, sealPredicate]
    refine (ih ⟨comparable.plain, comparable.numbered⟩).wrap ?_
    rintro e ⟨c', rfl, related⟩
    exact ⟨.not c', rfl, .not related⟩
  | and l r left right =>
    obtain ⟨first, second⟩ := comparable.parts rfl
    simp only [Condition.toExpr, sealPredicate, isSensitive_condition, Bool.false_and,
      indexOperandIf, Bool.false_eq_true, if_false, pure_bind, Condition.atoms,
      List.flatMap_append, comparing_append]
    refine (left first).bind ?_
    rintro e ⟨l', rfl, relatedLeft⟩
    refine (right second).wrap ?_
    rintro e' ⟨r', rfl, relatedRight⟩
    exact ⟨.and l' r', rfl, .and relatedLeft relatedRight⟩
  | or l r left right =>
    obtain ⟨first, second⟩ := comparable.parts rfl
    simp only [Condition.toExpr, sealPredicate, isSensitive_condition, Bool.false_and,
      indexOperandIf, Bool.false_eq_true, if_false, pure_bind, Condition.atoms,
      List.flatMap_append, comparing_append]
    refine (left first).bind ?_
    rintro e ⟨l', rfl, relatedLeft⟩
    refine (right second).wrap ?_
    rintro e' ⟨r', rfl, relatedRight⟩
    exact ⟨.or l' r', rfl, .or relatedLeft relatedRight⟩

theorem sealFilter_succeeds (scope : List String) (setting : Setting g bound supply)
    (replaces : Replaces g table columns) {condition : Option (Condition (Atom (Entry Nat)))}
    (comparable : ∀ c, condition = some c → Comparable columns c) :
    g.Succeeds bound supply (g.sealFilter scope (condition.map Condition.toExpr))
      (comparing (conditionCompared columns condition)) fun filter =>
        ∃ condition' : Option (Condition (Atom (Entry Nat))),
          filter = condition'.map Condition.toExpr ∧
          Option.Rel (Condition.Related (AtomIndexed g.handler columns)) condition condition' := by
  cases condition with
  | none => exact Succeeds.pure ⟨none, rfl, .none⟩
  | some c =>
    simp only [Option.map_some, sealFilter, replaces.overwrite, if_true]
    refine (sealCondition_succeeds setting replaces (comparable c rfl)).wrap ?_
    rintro e ⟨c', rfl, related⟩
    exact ⟨some c', rfl, .some related⟩

/-- Aliases that map the outputs in a list to properties of the same names. -/
structure Recorded (aliases : Members String) (outputs : List String) : Prop where
  same : ∀ pair ∈ aliases, pair.1 = pair.2
  keys : ∀ key, key ∈ aliases.keys ↔ key ∈ outputs

theorem Recorded.insert {aliases : Members String} {outputs : List String}
    (recorded : Recorded aliases outputs) (output : String) :
    Recorded (aliases.insert output output) (outputs ++ [output]) := by
  refine ⟨fun pair member => ?_, fun key => ?_⟩
  · rcases Members.mem_insert_cases member with rfl | old
    · rfl
    · exact recorded.same pair old
  · rw [Members.mem_keys_insert, recorded.keys, List.mem_append, List.mem_singleton, or_comm]

theorem Recorded.values {aliases : Members String} {outputs : List String}
    (recorded : Recorded aliases outputs) (property : String) :
    property ∈ aliases.values ↔ property ∈ outputs := by
  rw [← recorded.keys, Members.values, Members.keys]
  have same : aliases.map Prod.snd = aliases.map Prod.fst :=
    List.map_congr_left fun pair member => (recorded.same pair member).symm
  rw [same]

theorem projected?_column (replaces : Replaces g table columns) {name : String}
    (plain : Plain name) (underived : ¬ Derived columns name) :
    g.projected? [table] (columnExpr name) = sensitive? columns name := by
  rw [projected?, sensitive?_column replaces plain underived]
  cases known : sensitive? columns name with
  | none => rfl
  | some c =>
    have here := replaces.layout.tables c (sensitive?_some known).1
    simp [here]

theorem label_toSelectItem (item : Item) :
    (item.toSelectItem : SelectItem Nat).label.or
      (item.toSelectItem : SelectItem Nat).expr.columnName? = some (.bare item.output) := by
  obtain ⟨column, label⟩ := item
  cases label <;> rfl

theorem sealItem_gives (replaces : Replaces g table columns) (item : Item)
    (plain : Plain item.column) (underived : ¬ Derived columns item.column)
    (output : Plain item.output) {d : Draft} {outputs : List String}
    (recorded : Recorded d.aliases outputs) :
    ∃ aliases, (g.sealItem [table] item.toSelectItem).Gives d
        (sealItem columns item).toSelectItem { d with aliases := aliases } ∧
      Recorded aliases (outputs ++ sensitiveOutputs columns [item]) := by
  have projected : g.projected? [table] (item.toSelectItem : SelectItem Nat).expr =
      sensitive? columns item.column := projected?_column replaces plain underived
  simp only [Sealing.sealItem, projected, label_toSelectItem]
  cases known : sensitive? columns item.column with
  | none =>
    refine ⟨d.aliases, ?_, ?_⟩
    · simp only [Seal.gives_pure, Store.sealItem, known, and_self]
    · simpa [sensitiveOutputs, known] using recorded
  | some c =>
    refine ⟨d.aliases.insert item.output item.output, ?_, ?_⟩
    · have property : propertyOf g.resultMaps (.bare item.output) = item.output := by
        rw [replaces.unmapped]
        exact output.normalized
      simp only [recordAlias, Seal.gives_bind, Seal.gives_modify, Seal.gives_pure, property]
      refine ⟨(), _, rfl, ?_, rfl⟩
      simp only [Store.sealItem, known]
      rfl
    · simpa [sensitiveOutputs, known] using recorded.insert item.output

theorem sealItems_gives (replaces : Replaces g table columns) {items : List Item}
    (plain : ∀ item ∈ items, Plain item.column ∧ ¬ Derived columns item.column)
    (outputs : ∀ item ∈ items, Plain item.output) {d : Draft} {before : List String}
    (recorded : Recorded d.aliases before) :
    ∃ aliases, ((items.map Item.toSelectItem).mapM (g.sealItem [table])).Gives d
        ((items.map (sealItem columns)).map Item.toSelectItem) { d with aliases := aliases } ∧
      Recorded aliases (before ++ sensitiveOutputs columns items) := by
  induction items generalizing d before with
  | nil =>
    refine ⟨d.aliases, ?_, ?_⟩
    · simp only [List.map_nil, List.mapM_nil, Seal.gives_pure, and_self]
    · simpa [sensitiveOutputs] using recorded
  | cons item items ih =>
    have here := plain item List.mem_cons_self
    obtain ⟨middle, first, recorded⟩ := sealItem_gives replaces item here.1 here.2
      (outputs item List.mem_cons_self) recorded
    obtain ⟨aliases, others, recorded⟩ := ih
      (fun other member => plain other (List.mem_cons_of_mem _ member))
      (fun other member => outputs other (List.mem_cons_of_mem _ member))
      (d := { d with aliases := middle }) recorded
    refine ⟨aliases, ?_, ?_⟩
    · simp only [List.map_cons, List.mapM_cons, Seal.gives_bind, Seal.gives_pure]
      exact ⟨_, _, first, _, _, others, rfl, rfl⟩
    · have split : sensitiveOutputs columns (item :: items) =
          sensitiveOutputs columns [item] ++ sensitiveOutputs columns items := by
        simp only [sensitiveOutputs, ← List.map_append, ← List.filter_append,
          List.singleton_append]
      rwa [split, ← List.append_assoc]

/-- The names under which a request gives out sensitive columns. -/
def aliased (columns : List SensitiveColumn) {α : Type} : Request α → List String
  | .insert _ _ _ => []
  | .select items _ => sensitiveOutputs columns items

theorem sealSelect_succeeds (setting : Setting g bound supply) (replaces : Replaces g table columns)
    {items : List Item} (selectable : Selectable columns items)
    {condition : Option (Condition (Atom (Entry Nat)))}
    (comparable : ∀ c, condition = some c → Comparable columns c) {d : Draft}
    {part : Nat → List Slot} (unaliased : d.aliases = [])
    (allowed : Allowed bound [] (comparing (conditionCompared columns condition)))
    (ledger : Ledger g bound supply [] d part) :
    ∃ condition' d' part',
      (g.sealTree ((Request.select items condition).toStatement table)).Gives d
        ((Request.select (items.map (sealItem columns)) condition').toStatement table) d' ∧
      Option.Rel (Condition.Related (AtomIndexed g.handler columns)) condition condition' ∧
      Ledger g bound supply (comparing (conditionCompared columns condition)) d' part' ∧
      Recorded d'.aliases (sensitiveOutputs columns items) := by
  have start : Recorded d.aliases [] := by
    rw [unaliased]
    exact ⟨fun _ member => absurd member List.not_mem_nil, fun _ => Iff.rfl⟩
  obtain ⟨aliases, projection, recorded⟩ :=
    sealItems_gives replaces selectable.columns selectable.outputs start
  have middle : Ledger g bound supply [] { d with aliases := aliases } part :=
    ledger.quiet rfl (.refl _)
  obtain ⟨filter, d', part', run, ⟨condition', rfl, related⟩, ledger', same⟩ :=
    sealFilter_succeeds [table] setting replaces comparable [] _ _ allowed middle
  have scope : scopeOf [(⟨.table [.bare table] false [] none, []⟩ : FromItem Nat)] = [table] := by
    simp [scopeOf, baseTables, FromItem.baseTables, TableFactor.baseTables, joinTables, tableKeys,
      replaces.layout.plainTable.normalized]
  refine ⟨condition', d', part', ?_, related, ledger', same ▸ recorded⟩
  have still : ∀ d, (g.sealSources [⟨.table [.bare table] false [] none, []⟩]).Gives d
      [⟨.table [.bare table] false [] none, []⟩] d := fun d => by
    simp [sealSources, sealSource, sealFactor, sealJoins]
  have select : (g.sealSelect (selectOf table items condition)).Gives d
      (selectOf table (items.map (sealItem columns)) condition') d' := by
    simp only [selectOf, sealSelect, scope, sealProjection, replaces.overwrite, List.isEmpty_cons,
      Bool.not_false, Bool.and_self, if_true, Seal.gives_bind, Seal.gives_pure]
    exact ⟨_, _, projection, _, _, still _, _, _, run, rfl, rfl⟩
  simp only [Request.toStatement, sealTree, sealQuery, sealCtes, sealBody, Seal.gives_bind,
    Seal.gives_pure]
  exact ⟨_, _, ⟨_, _, ⟨rfl, rfl⟩, _, _, ⟨_, _, select, rfl, rfl⟩, rfl, rfl⟩, rfl, rfl⟩

end Runs

/-! What the placeholders of the sealed condition are bound to. -/

section Values

variable {g : Sealing} {used : String → Prop} {columns : List SensitiveColumn} {ρ ρ' : Nat → Json}

/-- The values that an atom is bound to: its own, or their indexes if its column is sensitive. -/
structure AtomStands (g : Sealing) (used : String → Prop) (columns : List SensitiveColumn)
    (ρ ρ' : Nat → Json) (a : Atom (Entry Nat)) : Prop where
  underived : ¬ Derived columns a.column
  kept : sensitive? columns a.column = none → ∀ e ∈ a.entries, ∀ n ∈ e.ordinals, ρ' n = ρ n
  compared : (sensitive? columns a.column).isSome → ∀ e ∈ a.entries, ∀ n ∈ e.ordinals,
    ((ρ n).plain? = some none ∧ ρ' n = ρ n) ∨ ∃ text key, (ρ n).plain? = some (some text) ∧
      g.handler.index text = .ok key ∧ ρ' n = .string key
  used : (sensitive? columns a.column).isSome → ∀ e ∈ a.entries, ∀ text,
    (e.cell ρ).plain? = some (some text) → used text

theorem cell_congr {e : Entry Nat} (same : ∀ n ∈ e.ordinals, ρ' n = ρ n) :
    e.cell ρ' = e.cell ρ := by
  cases e with
  | placeholder ordinal =>
    cases ordinal with
    | none => rfl
    | some n => exact same n List.mem_cons_self
  | _ => rfl

theorem EntryIndexed.keyed {e e' : Entry Nat} (indexed : EntryIndexed g.handler e e')
    (compared : ∀ n ∈ e.ordinals, ((ρ n).plain? = some none ∧ ρ' n = ρ n) ∨
      ∃ text key, (ρ n).plain? = some (some text) ∧ g.handler.index text = .ok key ∧
        ρ' n = .string key)
    (known : ∀ text, (e.cell ρ).plain? = some (some text) → used text) :
    Keyed g.handler used (e.cell ρ) (e'.cell ρ') := by
  cases indexed with
  | @placeholder n =>
    rcases compared n List.mem_cons_self with ⟨null, same⟩ | ⟨text, key, read, indexed, same⟩
    · have none : ρ n = .null := by
        cases value : ρ n <;> simp [value, Json.plain?] at null ⊢
      simp only [Entry.cell, same, none]
      exact .null
    · simp only [Entry.cell, same]
      exact .text (known text read) read indexed
  | @literal _ plain key written indexed =>
    have cell : e.cell ρ = .string plain := by
      cases e <;> cases written <;> rfl
    rw [cell] at known ⊢
    exact .text (known plain rfl) rfl indexed
  | null => exact .null

theorem AtomIndexed.sealed {a a' : Atom (Entry Nat)} (indexed : AtomIndexed g.handler columns a a')
    (stands : AtomStands g used columns ρ ρ' a) :
    AtomSealed g.handler used columns (a.map (Entry.cell ρ)) (a'.map (Entry.cell ρ')) := by
  cases indexed with
  | kept known =>
    have same : a.map (Entry.cell ρ') = a.map (Entry.cell ρ) := by
      have kept := stands.kept known
      cases a with
      | equal negated flipped column e =>
        simp only [Atom.map, cell_congr (kept e List.mem_cons_self)]
      | among negated column es =>
        have cells : es.map (Entry.cell ρ') = es.map (Entry.cell ρ) :=
          List.map_congr_left fun e member => cell_congr (kept e member)
        simp only [Atom.map, cells]
      | isNull negated column => rfl
    rw [same]
    refine .kept ?_
    rw [Atom.column_map]
    exact ⟨known, stands.underived⟩
  | @equal negated flipped name c e e' known indexed =>
    have sensitive : (sensitive? columns name).isSome = true := by rw [known]; rfl
    obtain ⟨inside, rfl⟩ := sensitive?_some known
    exact .equal inside (indexed.keyed (stands.compared sensitive e List.mem_cons_self)
      (stands.used sensitive e List.mem_cons_self))
  | @among negated name c es es' known indexed =>
    have sensitive : (sensitive? columns name).isSome = true := by rw [known]; rfl
    obtain ⟨inside, rfl⟩ := sensitive?_some known
    refine .among inside ?_
    have compared := stands.compared sensitive
    have texts := stands.used sensitive
    simp only [Atom.entries] at compared texts
    clear stands
    induction indexed with
    | nil => exact .nil
    | cons here _ ih =>
      rw [List.forall_mem_cons] at compared texts
      exact .cons (here.keyed compared.1 texts.1) (ih compared.2 texts.2)
  | isNull known =>
    obtain ⟨inside, rfl⟩ := sensitive?_some known
    exact .isNull inside

theorem Condition.Related.map {α β γ δ : Type} {R : α → β → Prop} {S : γ → δ → Prop} {f : α → γ}
    {h : β → δ} {c : Condition α} {d : Condition β} (related : Related R c d)
    (each : ∀ a ∈ c.atoms, ∀ b, R a b → S (f a) (h b)) : Related S (c.map f) (d.map h) := by
  induction related with
  | atom here => exact .atom (each _ List.mem_cons_self _ here)
  | nested _ ih => exact .nested (ih each)
  | not _ ih => exact .not (ih each)
  | and _ _ left right =>
    exact .and (left fun a member => each a (List.mem_append_left _ member))
      (right fun a member => each a (List.mem_append_right _ member))
  | or _ _ left right =>
    exact .or (left fun a member => each a (List.mem_append_left _ member))
      (right fun a member => each a (List.mem_append_right _ member))

theorem indexed_ordinals {handler : Handler} {es es' : List (Entry Nat)}
    (indexed : List.Forall₂ (EntryIndexed handler) es es') :
    .placeholder none ∉ es' ∧ es'.flatMap Entry.ordinals = es.flatMap Entry.ordinals := by
  induction indexed with
  | nil => exact ⟨List.not_mem_nil, rfl⟩
  | @cons e e' es es' here _ ih =>
    have same : e' ≠ .placeholder none ∧ e'.ordinals = e.ordinals := by
      cases here with
      | placeholder => exact ⟨by simp, rfl⟩
      | literal written => cases e <;> cases written <;> exact ⟨by simp, rfl⟩
      | null => exact ⟨by simp, rfl⟩
    rw [List.mem_cons, not_or, List.flatMap_cons, List.flatMap_cons, same.2, ih.2]
    exact ⟨⟨Ne.symm same.1, ih.1⟩, rfl⟩

theorem AtomIndexed.ordinals {handler : Handler} {a a' : Atom (Entry Nat)}
    (indexed : AtomIndexed handler columns a a') (numbered : .placeholder none ∉ a.entries) :
    .placeholder none ∉ a'.entries ∧
      a'.entries.flatMap Entry.ordinals = a.entries.flatMap Entry.ordinals := by
  cases indexed with
  | kept => exact ⟨numbered, rfl⟩
  | equal _ here => exact indexed_ordinals (.cons here .nil)
  | among _ here => exact indexed_ordinals here
  | isNull => exact ⟨numbered, rfl⟩

theorem related_ordinals {handler : Handler} {c c' : Condition (Atom (Entry Nat))}
    (related : Condition.Related (AtomIndexed handler columns) c c')
    (numbered : ∀ a ∈ c.atoms, .placeholder none ∉ a.entries) :
    .placeholder none ∉ c'.entries ∧
      c'.entries.flatMap Entry.ordinals = c.entries.flatMap Entry.ordinals := by
  induction related with
  | atom here =>
    simp only [Condition.entries_atom]
    exact here.ordinals (numbered _ List.mem_cons_self)
  | nested _ ih => exact ih numbered
  | not _ ih => exact ih numbered
  | and _ _ left right =>
    have first := left fun a member => numbered a (List.mem_append_left _ member)
    have second := right fun a member => numbered a (List.mem_append_right _ member)
    simp only [Condition.entries_and, List.mem_append, not_or, List.flatMap_append, first.2,
      second.2]
    exact ⟨⟨first.1, second.1⟩, trivial⟩
  | or _ _ left right =>
    have first := left fun a member => numbered a (List.mem_append_left _ member)
    have second := right fun a member => numbered a (List.mem_append_right _ member)
    simp only [Condition.entries_or, List.mem_append, not_or, List.flatMap_append, first.2,
      second.2]
    exact ⟨⟨first.1, second.1⟩, trivial⟩

end Values

section Selection

variable {g : Sealing} {bound : BoundStatement} {supply : Supply} {used : String → Prop}
  {table : String} {columns : List SensitiveColumn} {c c' : Condition (Atom (Entry Nat))}
  {d : Draft} {part : Nat → List Slot}

theorem compared_sublist (columns : List SensitiveColumn) (items : List Item)
    (condition : Option (Condition (Atom (Entry Nat)))) :
    (conditionCompared columns condition).Sublist
      ((Request.select items condition).entries.flatMap Entry.ordinals) := by
  cases condition with
  | none => exact List.nil_sublist _
  | some c =>
    rw [Request.entries, Condition.entries, List.flatMap_assoc]
    refine List.Sublist.flatMap_right c.atoms fun a _ => ?_
    unfold atomCompared
    split
    · exact .refl _
    · exact List.nil_sublist _

theorem not_mem_compared (single : (c.entries.flatMap Entry.ordinals).Nodup)
    {a : Atom (Entry Nat)} (member : a ∈ c.atoms) (plain : sensitive? columns a.column = none)
    {e : Entry Nat} (entry : e ∈ a.entries) {n : Nat} (here : n ∈ e.ordinals) :
    n ∉ c.atoms.flatMap (atomCompared columns) := by
  have whole : (c.atoms.flatMap fun a => a.entries.flatMap Entry.ordinals).Nodup := by
    rwa [Condition.entries, List.flatMap_assoc] at single
  intro compared
  obtain ⟨b, other, compared⟩ := List.mem_flatMap.mp compared
  unfold atomCompared at compared
  split at compared
  · rename_i sensitive
    have same := eq_of_mem_flatMap whole member other
      (List.mem_flatMap.mpr ⟨e, entry, here⟩) compared
    rw [← same, plain] at sensitive
    cases sensitive
  · cases compared

theorem atoms_stand (setting : Setting g bound supply)
    (ledger : Ledger g bound supply (comparing (c.atoms.flatMap (atomCompared columns))) d part)
    (comparable : Comparable columns c)
    (ordinals : c.entries.flatMap Entry.ordinals = List.range bound.mappings.length)
    (known : ∀ text ∈ sensitiveTexts columns
      (.select [] (some (c.map (Atom.map (Entry.cell (valueAt bound)))))), used text)
    {a : Atom (Entry Nat)} (member : a ∈ c.atoms) :
    AtomStands g used columns (valueAt bound) (fun n => (valuesAt d part n).headD .null) a := by
  have low : ∀ e ∈ a.entries, ∀ n ∈ e.ordinals, n < bound.mappings.length := by
    intro e entry n here
    refine List.mem_range.mp (ordinals ▸ List.mem_flatMap.mpr ⟨e, ?_, here⟩)
    exact List.mem_flatMap.mpr ⟨a, member, entry⟩
  refine ⟨(comparable.plain a member).2, ?_, ?_, ?_⟩
  · intro plain e entry n here
    have uncompared := not_mem_compared (ordinals ▸ List.nodup_range) member plain entry here
    have kept := values_kept ledger setting.fresh (low e entry n here) fun b acted same => by
      obtain ⟨m, compared, rfl⟩ := mem_comparing.mp acted
      exact uncompared (same ▸ compared)
    rw [kept, List.headD_cons]
  · intro sensitive e entry n here
    have compared : n ∈ c.atoms.flatMap (atomCompared columns) := by
      refine List.mem_flatMap.mpr ⟨a, member, ?_⟩
      rw [atomCompared, if_pos sensitive]
      exact List.mem_flatMap.mpr ⟨e, entry, here⟩
    obtain ⟨key, held, outcome⟩ := values_compared ledger setting.fresh (low e entry n here)
      (mem_comparing.mpr ⟨n, compared, rfl⟩) fun written => by
        obtain ⟨m, -, other⟩ := mem_comparing.mp written
        cases other
    rw [held, List.headD_cons]
    exact outcome
  · intro sensitive e entry text read
    refine known text ?_
    rw [sensitiveTexts, Condition.atoms_map, List.flatMap_map]
    refine List.mem_flatMap.mpr ⟨a, member, ?_⟩
    rw [Atom.column_map, if_pos sensitive, Atom.entries_map, List.flatMap_map]
    exact List.mem_flatMap.mpr ⟨e, entry, by simp [textsOf, read]⟩

/-- Every mapping of a request that is only compared keeps one value. -/
theorem values_single (setting : Setting g bound supply) {ns : List Nat}
    (ledger : Ledger g bound supply (comparing ns) d part) :
    (List.range bound.mappings.length).flatMap (valuesAt d part) =
      (List.range bound.mappings.length).map fun n => (valuesAt d part n).headD .null := by
  rw [← List.flatMap_pure_eq_map]
  refine List.flatMap_congr fun n member => ?_
  have inside := List.mem_range.mp member
  have single : ∃ key, valuesAt d part n = [key] := by
    by_cases listed : n ∈ ns
    · obtain ⟨key, held, -⟩ := values_compared ledger setting.fresh inside
        (mem_comparing.mpr ⟨n, listed, rfl⟩) fun written => by
          obtain ⟨m, -, other⟩ := mem_comparing.mp written
          cases other
      exact ⟨key, held⟩
    · refine ⟨_, values_kept ledger setting.fresh inside fun b acted same => ?_⟩
      obtain ⟨m, compared, rfl⟩ := mem_comparing.mp acted
      exact listed (same ▸ compared)
  obtain ⟨key, held⟩ := single
  simp [held]

theorem selection_sealed (setting : Setting g bound supply) {items : List Item}
    {condition condition' : Option (Condition (Atom (Entry Nat)))}
    (ledger : Ledger g bound supply (comparing (conditionCompared columns condition)) d part)
    (comparable : ∀ c, condition = some c → Comparable columns c)
    (ordinals : (Request.select items condition).entries.flatMap Entry.ordinals =
      List.range bound.mappings.length)
    (known : ∀ text ∈ sensitiveTexts columns
      ((Request.select items condition).bind (valuesOf bound)), used text)
    (related : Option.Rel (Condition.Related (AtomIndexed g.handler columns)) condition condition')
    (sql : String) :
    RequestSealed g.handler used columns
      ((Request.select items condition).bind (valuesOf bound))
      ((Request.select (items.map (sealItem columns)) condition').bind
        (valuesOf (d.parameters.toBound sql))) := by
  cases related with
  | none => exact .all
  | @some c c' related =>
    have here := comparable c rfl
    have numbered : .placeholder none ∉ (Request.select items (some c)).entries := fun member => by
      obtain ⟨a, atom, entry⟩ := List.mem_flatMap.mp member
      exact here.numbered a atom entry
    obtain ⟨numbered', same⟩ := related_ordinals related here.numbered
    have ordinals' : (Request.select (items.map (sealItem columns)) (some c')).entries.flatMap
        Entry.ordinals = List.range bound.mappings.length := same.trans ordinals
    have plain : (Request.select items (some c)).bind (valuesOf bound) =
        .select items (some (c.map (Atom.map (Entry.cell (valueAt bound))))) := by
      rw [valuesOf_eq, ← ordinals]
      exact Request.bind_numbered numbered
    have sealed : (Request.select (items.map (sealItem columns)) (some c')).bind
        (valuesOf (d.parameters.toBound sql)) = .select (items.map (sealItem columns))
          (some (c'.map (Atom.map (Entry.cell fun n => (valuesAt d part n).headD .null)))) := by
      rw [valuesOf_toBound ledger, values_single setting ledger, ← ordinals']
      exact Request.bind_numbered numbered'
    rw [plain] at known
    rw [plain, sealed]
    refine .filtered (related.map fun a member b indexed => indexed.sealed ?_)
    exact atoms_stand setting ledger here ordinals known member

end Selection

end SealedColumns.Store
