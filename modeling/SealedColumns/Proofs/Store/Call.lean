import SealedColumns.Proofs.Alignment
import SealedColumns.Proofs.Legible
import SealedColumns.Proofs.Store.Emitted
import SealedColumns.Proofs.Store.Selection

/-!
One call of the interceptor: a suitable statement is always sealed, and the request that its sealed
text makes to the store is the sealed form of the plain request.
-/
namespace SealedColumns.Store

open Sql Sealing

structure Call where
  statement : MappedStatement
  bound : BoundStatement

/-- Requests of something that name no target and no index column, with rows as wide as their
columns. -/
def Admissible {α : Type} (columns : List SensitiveColumn) : Request α → Prop
  | .insert _ names rows => names ≠ [] ∧
      (∀ name ∈ names, Plain name ∧ ¬ Derived columns name) ∧
      ∀ row ∈ rows, row.length = names.length
  | .select items condition => items ≠ [] ∧ Selectable columns items ∧
      ∀ c, condition = some c → ∀ a ∈ c.atoms, Plain a.column ∧ ¬ Derived columns a.column

section Shapes

variable {α β σ : Type} {f : α → σ → β × σ}

theorem length_threadList (as : List α) (s : σ) : (threadList f as s).1.length = as.length := by
  induction as generalizing s with
  | nil => rfl
  | cons a as ih => simp only [threadList, List.length_cons, ih]

theorem lengths_threadRows (rows : List (List α)) (s : σ) :
    (threadList (threadList f) rows s).1.map List.length = rows.map List.length := by
  induction rows generalizing s with
  | nil => rfl
  | cons row rows ih => simp only [threadList, List.map_cons, length_threadList, ih]

theorem columns_thread (c : Condition (Atom α)) (s : σ) :
    (c.thread (Atom.thread f) s).1.atoms.map Atom.column = c.atoms.map Atom.column := by
  induction c generalizing s with
  | atom a => cases a <;> rfl
  | nested c ih => exact ih s
  | not c ih => exact ih s
  | and l r left right =>
    simp only [Condition.thread, Condition.atoms, List.map_append, left, right]
  | or l r left right =>
    simp only [Condition.thread, Condition.atoms, List.map_append, left, right]

theorem Admissible.thread {columns : List SensitiveColumn} {r : Request α}
    (admissible : Admissible columns r) (s : σ) : Admissible columns (r.thread f s).1 := by
  cases r with
  | insert rowWord names rows =>
    obtain ⟨some, plain, width⟩ := admissible
    refine ⟨some, plain, fun row member => ?_⟩
    have listed := List.mem_map_of_mem (f := List.length) member
    rw [lengths_threadRows] at listed
    obtain ⟨old, known, same⟩ := List.mem_map.mp listed
    rw [← same, width old known]
  | select items condition =>
    obtain ⟨some, selectable, plain⟩ := admissible
    cases condition with
    | none =>
      refine ⟨some, selectable, fun c' same => ?_⟩
      cases same
    | some c =>
      refine ⟨some, selectable, fun c' same a member => ?_⟩
      cases same
      have listed := List.mem_map_of_mem (f := Atom.column) member
      rw [columns_thread] at listed
      obtain ⟨old, known, same⟩ := List.mem_map.mp listed
      exact same ▸ plain c rfl old known

theorem aliased_thread (columns : List SensitiveColumn) (r : Request α) (s : σ) :
    aliased columns (r.thread f s).1 = aliased columns r := by
  cases r with
  | insert => rfl
  | select items condition => cases condition <;> rfl

end Shapes

/-! What sealing makes of a request, and that it reads as it is printed. -/

/-- The request that sealing makes of a request. -/
inductive Rewritten (handler : Handler) (columns : List SensitiveColumn) :
    Request (Entry Nat) → Request (Entry Nat) → Prop where
  | insert {rowWord : Bool} {names : List String} {rows rows' : List (List (Entry Nat))} :
      RowsPaired handler columns names rows rows' → Rewritten handler columns
        (.insert rowWord names rows) (.insert rowWord (sealedNames columns names) rows')
  | select {items : List Item} {condition condition' : Option (Condition (Atom (Entry Nat)))} :
      Option.Rel (Condition.Related (AtomIndexed handler columns)) condition condition' →
        Rewritten handler columns (.select items condition)
          (.select (items.map (sealItem columns)) condition')

/-- The columns that a request names. -/
def Request.named {α : Type} : Request α → List String
  | .insert _ names _ => names
  | .select items condition =>
    items.map Item.column ++ (condition.elim [] Condition.atoms).map Atom.column

def Request.labels {α : Type} : Request α → List String
  | .insert _ _ _ => []
  | .select items _ => items.filterMap Item.label

/-- The entries that are not for a sensitive column: sealing leaves them as they are. -/
def keptEntries (columns : List SensitiveColumn) {α : Type} : Request α → List α
  | .insert _ names rows => rows.flatMap fun row =>
    ((row.zip (slotsOf columns names)).filter fun pair => pair.2.isNone).map Prod.fst
  | .select _ condition => (condition.elim [] Condition.atoms).flatMap fun a =>
    if (sensitive? columns a.column).isNone then a.entries else []

/-- What sealing keeps of a request reads as it is printed, and so do the placeholders. -/
structure Request.IsLegible (d : Dialect) (columns : List SensitiveColumn) (r : Request Entry) :
    Prop where
  named : ∀ name ∈ r.named, (Ident.bare name).isColumn d = true
  labels : ∀ label ∈ r.labels, (Ident.bare label).isPlain d = true
  kept : ∀ e ∈ keptEntries columns r, e.IsPlain d
  marks : .placeholder none ∈ r.entries → Entry.IsPlain d (.placeholder none : Entry)

/-- A table whose names read as they are printed, and a handler whose texts do. -/
structure Spelled (d : Dialect) (handler : Handler) (table : String)
    (columns : List SensitiveColumn) : Prop where
  table : isTableName d [.bare table] = true
  columns : ∀ name ∈ columns.flatMap columnNames, (Ident.bare name).isColumn d = true
  handler : handler.WritesPlain d

section Emitted

variable {d : Dialect} {handler : Handler} {table : String} {columns : List SensitiveColumn}

theorem AtomIndexed.alike {α β : Type} {f : Entry Nat → α} {h : Entry Nat → β}
    {a a' : Atom (Entry Nat)} (indexed : AtomIndexed handler columns a a') :
    (a.map f).Alike (a'.map h) := by
  have empty {es es' : List (Entry Nat)} (same : es' = [] → es = []) (none : es'.map h = []) :
      es.map f = [] := by
    rw [same (List.map_eq_nil_iff.mp none), List.map_nil]
  cases indexed with
  | kept _ =>
    cases a with
    | equal => exact .equal
    | among => exact .among (empty id)
    | isNull => exact .isNull
  | equal _ _ => exact .equal
  | @among _ _ _ es es' _ indexed =>
    refine .among (empty ?_)
    rintro rfl
    exact List.forall₂_nil_right_iff.mp indexed
  | isNull _ => exact .isNull

theorem Rewritten.alike {α β : Type} {f : Entry Nat → α} {h : Entry Nat → β}
    {q q' : Request (Entry Nat)} (rewritten : Rewritten handler columns q q') :
    (q.map f).Alike (q'.map h) := by
  cases rewritten with
  | insert paired =>
    refine .insert fun none => ?_
    obtain rfl := List.map_eq_nil_iff.mp none
    rw [List.forall₂_nil_right_iff.mp paired, List.map_nil]
  | select related =>
    cases related with
    | none => exact .all
    | some related => exact .filtered (related.map fun a _ b indexed => indexed.alike)

theorem Atom.entries_flatMap {α β : Type} (f : α → β) (c : Condition (Atom α)) :
    (c.map (Atom.map f)).entries = c.entries.map f := by
  simp only [Condition.entries, Condition.atoms_map, List.flatMap_map, List.map_flatMap,
    Atom.entries_map]

theorem Request.entries_map {α β : Type} (f : α → β) (r : Request α) :
    (r.map f).entries = r.entries.map f := by
  cases r with
  | insert rowWord names rows => exact List.map_flatten.symm
  | select items condition =>
    cases condition with
    | none => rfl
    | some c => exact Atom.entries_flatMap f c

theorem keptEntries_map {α β : Type} (f : α → β) (r : Request α) :
    keptEntries columns (r.map f) = (keptEntries columns r).map f := by
  cases r with
  | insert rowWord names rows =>
    simp only [Request.map, keptEntries, List.flatMap_map, List.map_flatMap, List.zip_map_left,
      List.filter_map, List.map_map]
    rfl
  | select items condition =>
    cases condition with
    | none => rfl
    | some c =>
      simp only [Request.map, keptEntries, Option.map_some, Option.elim_some, Condition.atoms_map,
        List.flatMap_map, List.map_flatMap, Atom.column_map, Atom.entries_map]
      refine List.flatMap_congr fun a _ => ?_
      split <;> rfl

/-! What is written in the place of an entry, if a placeholder may be written at all. -/

variable (writes : handler.WritesPlain d)

include writes

theorem EntryPair.isPlain {e target index : Entry Nat} (pair : EntryPair handler e target index)
    (mark : e.restore = .placeholder none → e.restore.IsPlain d) :
    target.restore.IsPlain d ∧ index.restore.IsPlain d := by
  cases pair with
  | placeholder => exact ⟨mark rfl, mark rfl⟩
  | literal _ literals =>
    obtain ⟨supply, encrypted⟩ := literals.encrypted
    exact ⟨writes.encrypted encrypted, writes.indexed literals.indexed⟩
  | null => exact ⟨rfl, rfl⟩

theorem EntryIndexed.isPlain {e e' : Entry Nat} (indexed : EntryIndexed handler e e')
    (mark : e.restore = .placeholder none → e.restore.IsPlain d) : e'.restore.IsPlain d := by
  cases indexed with
  | placeholder => exact mark rfl
  | literal _ indexed => exact writes.indexed indexed
  | null => rfl

theorem RowPaired.isPlain {pairs : List (Entry Nat × Option SensitiveColumn)}
    {es : List (Entry Nat)} (paired : RowPaired handler pairs es)
    (kept : ∀ pair ∈ pairs, pair.2 = none → pair.1.restore.IsPlain d)
    (mark : ∀ pair ∈ pairs, pair.1.restore = .placeholder none → pair.1.restore.IsPlain d) :
    (es = [] → pairs = []) ∧ ∀ e ∈ es, e.restore.IsPlain d := by
  induction paired with
  | nil => exact ⟨fun _ => rfl, fun _ member => absurd member List.not_mem_nil⟩
  | kept _ ih =>
    rw [List.forall_mem_cons] at kept mark
    exact ⟨nofun, List.forall_mem_cons.mpr ⟨kept.1 rfl, (ih kept.2 mark.2).2⟩⟩
  | pair here _ ih =>
    rw [List.forall_mem_cons] at kept mark
    obtain ⟨target, index⟩ := here.isPlain writes mark.1
    exact ⟨nofun, List.forall_mem_cons.mpr ⟨target,
      List.forall_mem_cons.mpr ⟨index, (ih kept.2 mark.2).2⟩⟩⟩

theorem AtomIndexed.isPlain {a a' : Atom (Entry Nat)}
    (indexed : AtomIndexed handler columns a a')
    (names : ∀ name ∈ columns.flatMap columnNames, (Ident.bare name).isColumn d = true)
    (column : (Ident.bare a.column).isColumn d = true)
    (kept : sensitive? columns a.column = none → ∀ e ∈ a.entries, e.restore.IsPlain d)
    (mark : ∀ e ∈ a.entries, e.restore = .placeholder none → e.restore.IsPlain d) :
    (a'.map Entry.restore).IsPlain d := by
  have index {name : String} {c : SensitiveColumn} (known : sensitive? columns name = some c) :
      (Ident.bare c.index).isColumn d = true :=
    names _ (List.mem_flatMap.mpr ⟨c, (sensitive?_some known).1, index_mem c⟩)
  cases indexed with
  | kept known =>
    refine ⟨(Atom.column_map ..).symm ▸ column, ?_⟩
    rw [Atom.entries_map]
    exact List.forall_mem_map.mpr (kept known)
  | equal known here =>
    refine ⟨index known, List.forall_mem_singleton.mpr ?_⟩
    exact here.isPlain writes (mark _ List.mem_cons_self)
  | @among _ _ _ es es' known related =>
    refine ⟨index known, List.forall_mem_map.mpr ?_⟩
    simp only [Atom.entries] at mark
    clear column kept
    induction related with
    | nil => exact fun _ member => absurd member List.not_mem_nil
    | cons here _ ih =>
      rw [List.forall_mem_cons] at mark ⊢
      exact ⟨here.isPlain writes mark.1, ih mark.2⟩
  | isNull known => exact ⟨index known, fun _ member => absurd member List.not_mem_nil⟩

omit writes

theorem sealedNames_ne_nil {names : List String} (some : names ≠ []) :
    sealedNames columns names ≠ [] := by
  obtain ⟨name, names, rfl⟩ := List.exists_cons_of_ne_nil some
  rw [sealedNames, List.flatMap_cons]
  split <;> exact List.cons_ne_nil _ _

theorem sealedNames_isColumn {names : List String}
    (layout : ∀ name ∈ columns.flatMap columnNames, (Ident.bare name).isColumn d = true)
    (named : ∀ name ∈ names, (Ident.bare name).isColumn d = true) :
    ∀ name ∈ sealedNames columns names, (Ident.bare name).isColumn d = true := by
  intro written member
  obtain ⟨name, inside, member⟩ := List.mem_flatMap.mp member
  cases known : sensitive? columns name with
  | none =>
    rw [known] at member
    obtain rfl := List.mem_singleton.mp member
    exact named _ inside
  | some c =>
    have here := (sensitive?_some known).1
    have written_mem : written ∈ columnNames c := by
      rw [known] at member
      exact List.mem_cons_of_mem _ member
    exact layout _ (List.mem_flatMap.mpr ⟨c, here, written_mem⟩)

theorem sealItem_isPlain {item : Item}
    (layout : ∀ name ∈ columns.flatMap columnNames, (Ident.bare name).isColumn d = true)
    (plain : item.IsPlain d) : (sealItem columns item).IsPlain d := by
  unfold sealItem
  cases known : sensitive? columns item.column with
  | none => exact plain
  | some c =>
    have target := layout _ (List.mem_flatMap.mpr ⟨c, (sensitive?_some known).1, target_mem c⟩)
    refine ⟨target, ?_⟩
    rintro _ ⟨⟩
    cases labelled : item.label with
    | some label =>
      rw [Item.output, labelled]
      exact plain.label _ labelled
    | none =>
      have column := plain.column
      rw [Item.output, labelled]
      simp only [Ident.isColumn, Bool.and_eq_true] at column
      exact column.1.1

theorem RowsPaired.isPlain (writes : handler.WritesPlain d) {names : List String}
    {rows rows' : List (List (Entry Nat))} (paired : RowsPaired handler columns names rows rows')
    (some : names ≠ []) (width : ∀ row ∈ rows, row.length = names.length)
    (kept : ∀ row ∈ rows, ∀ pair ∈ row.zip (slotsOf columns names), pair.2 = none →
      pair.1.restore.IsPlain d)
    (mark : ∀ row ∈ rows, ∀ e ∈ row, e.restore = .placeholder none → e.restore.IsPlain d) :
    ∀ row ∈ rows', row ≠ [] ∧ ∀ e ∈ row, e.restore.IsPlain d := by
  induction paired with
  | nil => exact fun _ member => absurd member List.not_mem_nil
  | cons here _ ih =>
    rw [List.forall_mem_cons] at width kept mark ⊢
    obtain ⟨empty, plain⟩ := here.isPlain writes kept.1 fun pair inside =>
      mark.1 _ (List.of_mem_zip inside).1
    refine ⟨⟨fun none => some ?_, plain⟩, ih width.2 kept.2 mark.2⟩
    have zipped := congrArg List.length (empty none)
    rw [List.length_zip, slotsOf, List.length_map, width.1, Nat.min_self] at zipped
    exact List.length_eq_zero_iff.mp zipped

/-- What sealing makes of a request reads as it is printed, if what it keeps of it does. -/
theorem Rewritten.isPlain (spelled : Spelled d handler table columns) {q q' : Request (Entry Nat)}
    (rewritten : Rewritten handler columns q q') (admissible : Admissible columns q)
    (legible : q.restore.IsLegible d columns) : q'.restore.IsPlain d := by
  obtain ⟨named, labels, kept, marks⟩ := legible
  rw [Request.restore, keptEntries_map, List.forall_mem_map] at kept
  rw [Request.restore, Request.entries_map] at marks
  have mark : ∀ e ∈ q.entries, e.restore = .placeholder none → e.restore.IsPlain d := by
    intro e inside same
    rw [same]
    exact marks (List.mem_map.mpr ⟨e, inside, same⟩)
  cases rewritten with
  | @insert rowWord names rows rows' paired =>
    obtain ⟨some, -, width⟩ := admissible
    have rows := paired.isPlain spelled.handler some width
      (fun row member pair inside none => kept _ (List.mem_flatMap.mpr ⟨row, member,
        List.mem_map.mpr ⟨pair, List.mem_filter.mpr ⟨inside, by simp [none]⟩, rfl⟩⟩))
      fun row member e inside => mark e (List.mem_flatten.mpr ⟨row, member, inside⟩)
    refine .insert (sealedNames_ne_nil some) (sealedNames_isColumn spelled.columns named) ?_
    refine List.forall_mem_map.mpr fun row member => ⟨by simpa using (rows row member).1, ?_⟩
    exact List.forall_mem_map.mpr (rows row member).2
  | @select items condition condition' related =>
    obtain ⟨some, -, -⟩ := admissible
    refine .select (by simpa using some) ?_ ?_
    · refine List.forall_mem_map.mpr fun item member => sealItem_isPlain spelled.columns ?_
      refine ⟨named _ ?_, fun label labelled => labels _ ?_⟩
      · exact List.mem_append_left _ (List.mem_map_of_mem member)
      · exact List.mem_filterMap.mpr ⟨item, member, labelled⟩
    · cases related with
      | none => rintro c ⟨⟩
      | @some c c' related =>
        rintro _ ⟨⟩
        rw [Condition.atoms_map, List.forall_mem_map]
        intro a' inside
        obtain ⟨a, member, indexed⟩ := related.exists_of_mem a' inside
        refine indexed.isPlain spelled.handler spelled.columns (named _ ?_) ?_ ?_
        · refine List.mem_append_right _ (List.mem_map.mpr ⟨a.map Entry.restore, ?_, ?_⟩)
          · rw [Option.map_some, Option.elim_some, Condition.atoms_map]
            exact List.mem_map_of_mem member
          · exact Atom.column_map ..
        · intro unknown e entry
          refine kept e (List.mem_flatMap.mpr ⟨a, member, ?_⟩)
          simpa [unknown] using entry
        · exact fun e entry => mark e (List.mem_flatMap.mpr ⟨a, member, entry⟩)

end Emitted

section Requests

variable {g : Sealing} {bound : BoundStatement} {supply : Supply} {used : String → Prop}
  {table : String} {columns : List SensitiveColumn}

theorem allowed_of_sublist {acts : List Act}
    (inside : (acts.map Act.ordinal).Sublist (List.range bound.mappings.length)) :
    Allowed bound [] acts :=
  ⟨fun _ member => List.mem_range.mp (inside.subset (List.mem_map_of_mem member)),
    inside.nodup List.nodup_range⟩

structure Passes (g : Sealing) (bound : BoundStatement) (supply : Supply) (used : String → Prop)
    (table : String) (columns : List SensitiveColumn) (r r' : Request (Entry Nat)) (d : Draft) :
    Prop where
  run : (g.sealTree (r.toStatement table)).Gives (draftOf bound supply) (r'.toStatement table) d
  rewritten : Rewritten g.handler columns r r'
  sealed : ∀ sql, RequestSealed g.handler used columns (r.bind (valuesOf bound))
    (r'.bind (valuesOf (d.parameters.toBound sql)))
  aliases : Recorded d.aliases (aliased columns r)
  names : d.supply.name = supply.name
  named : supply.named ≤ d.supply.named

theorem insertion_passes (setting : Setting g bound supply) (replaces : Replaces g table columns)
    {rowWord : Bool} {names : List String} {rows : List (List (Entry Nat))}
    (admissible : Admissible columns (.insert rowWord names rows))
    (numbered : .placeholder none ∉ rows.flatten)
    (ordinals : rows.flatten.flatMap Entry.ordinals = List.range bound.mappings.length)
    (known : ∀ text ∈ sensitiveTexts columns
      ((Request.insert rowWord names rows).bind (valuesOf bound)), used text) :
    ∃ r' d, Passes g bound supply used table columns (.insert rowWord names rows) r' d := by
  obtain ⟨some, plain, width⟩ := admissible
  have wide : Wide names rows := ⟨width, numbered⟩
  have inside : ((writing (rowsWritten columns names rows)).map Act.ordinal).Sublist
      (List.range bound.mappings.length) := by
    have ns : (writing (rowsWritten columns names rows)).map Act.ordinal =
        rowsWritten columns names rows := by
      simp [writing, Function.comp_def, Act.ordinal]
    rw [ns, ← ordinals]
    exact rowsWritten_sublist wide
  obtain ⟨x, d, part, run, ⟨rows', rfl, paired⟩, ledger, aliases⟩ :=
    sealInsert_succeeds setting replaces rowWord some plain wide [] (draftOf bound supply) _
      (allowed_of_sublist inside) (ledger_start setting.fresh)
  refine ⟨.insert rowWord (sealedNames columns names) rows', d, ?_, .insert paired, ?_, ?_,
    ledger.names, ledger.named⟩
  · simp only [Request.toStatement, sealTree, Seal.gives_bind, Seal.gives_pure]
    exact ⟨_, _, run, rfl, rfl⟩
  · have underived : ∀ name ∈ names, ¬ Derived columns name := fun name member =>
      (plain name member).2
    exact insertion_sealed setting replaces rowWord ledger underived wide ordinals known paired
  · rw [aliases]
    exact ⟨fun _ member => absurd member List.not_mem_nil, fun _ => Iff.rfl⟩

theorem selection_passes (setting : Setting g bound supply) (replaces : Replaces g table columns)
    {items : List Item} {condition : Option (Condition (Atom (Entry Nat)))}
    (admissible : Admissible columns (.select items condition))
    (numbered : .placeholder none ∉ (Request.select items condition).entries)
    (ordinals : (Request.select items condition).entries.flatMap Entry.ordinals =
      List.range bound.mappings.length)
    (known : ∀ text ∈ sensitiveTexts columns
      ((Request.select items condition).bind (valuesOf bound)), used text) :
    ∃ r' d, Passes g bound supply used table columns (.select items condition) r' d := by
  obtain ⟨-, selectable, plain⟩ := admissible
  have comparable : ∀ c, condition = some c → Comparable columns c := by
    rintro c rfl
    refine ⟨plain c rfl, fun a member entry => numbered ?_⟩
    exact List.mem_flatMap.mpr ⟨a, member, entry⟩
  have inside : ((comparing (conditionCompared columns condition)).map Act.ordinal).Sublist
      (List.range bound.mappings.length) := by
    have ns : (comparing (conditionCompared columns condition)).map Act.ordinal =
        conditionCompared columns condition := by
      simp [comparing, Function.comp_def, Act.ordinal]
    rw [ns, ← ordinals]
    exact compared_sublist columns items condition
  obtain ⟨condition', d, part, run, related, ledger, recorded⟩ :=
    sealSelect_succeeds setting replaces selectable comparable rfl (allowed_of_sublist inside)
      (ledger_start setting.fresh)
  exact ⟨.select (items.map (sealItem columns)) condition', d, run, .select related,
    selection_sealed setting ledger comparable ordinals known related, recorded, ledger.names,
    ledger.named⟩

theorem request_passes (setting : Setting g bound supply) (replaces : Replaces g table columns)
    {r : Request Entry} (admissible : Admissible columns r)
    (counted : bound.mappings.length = (r.toStatement table).countAnonymous)
    (known : ∀ text ∈ sensitiveTexts columns (r.bind (valuesOf bound)), used text) :
    ∃ r' d, Passes g bound supply used table columns r.number r' d := by
  obtain ⟨numbered, ordinals⟩ := r.entries_number table
  rw [← counted] at ordinals
  rw [← r.bind_number] at known
  have numberedAdmissible : Admissible columns r.number := admissible.thread 0
  generalize r.number = q at *
  cases q with
  | insert rowWord names rows =>
    exact insertion_passes setting replaces numberedAdmissible numbered ordinals known
  | select items condition =>
    exact selection_passes setting replaces numberedAdmissible numbered ordinals known

theorem Passes.counted {r : Request Entry} {r' : Request (Entry Nat)} {d : Draft}
    (passes : Passes g bound supply used table columns r.number r' d)
    (counted : bound.mappings.length = (r.toStatement table).countAnonymous) :
    (r'.toStatement table).restore.countAnonymous = d.parameters.length := by
  obtain ⟨aligned, once⟩ := Stage.initial_aligned supply counted
  have start : Stage.initial (r.toStatement table) bound supply =
      ⟨r.number.toStatement table, draftOf bound supply⟩ := by
    rw [← r.number_toStatement table]
    rfl
  rw [start] at aligned once
  have final : (r'.toStatement table).origins = d.parameters.origins :=
    ((sealTree_reaches passes.run).aligned aligned once).1
  rw [Statement.countAnonymous_restore, final, Parameters.origins, List.length_map,
    Parameters.length]

/-- The sealed request reads as it is printed. -/
theorem Passes.reads {r : Request Entry} {r' : Request (Entry Nat)} {d : Draft} {dialect : Dialect}
    {sql : String} (passes : Passes g bound supply used table columns r.number r' d)
    (spelled : Spelled dialect g.handler table columns)
    (parsed : Statement.parse dialect sql = .ok (r.toStatement table))
    (admissible : Admissible columns r) (legible : r.IsLegible dialect columns) :
    Statement.parse dialect (r'.toStatement table).restore.render =
      .ok (r'.restore.toStatement table) := by
  have alike : r.number.restore.Alike r'.restore := passes.rewritten.alike
  rw [r.restore_number] at alike
  rw [r'.restore_toStatement]
  refine request_reread parsed alike spelled.table ?_
  exact passes.rewritten.isPlain spelled (admissible.thread 0) (r.restore_number.symm ▸ legible)

end Requests

section Calls

/-- An interceptor that replaces the columns of a layout. -/
structure Guards (i : Interceptor) (handler : Handler) (table : String)
    (columns : List SensitiveColumn) : Prop where
  layout : Layout table columns
  handler : i.handler = some handler
  options : i.options = ⟨true, false⟩
  catalog : i.catalog = Catalog.ofColumns columns

def Call.sealing (call : Call) (i : Interceptor) (handler : Handler) (t : Statement) : Sealing :=
  ⟨.resolve t i.catalog, handler, i.options, call.statement.resultMaps, call.bound.mappings⟩

/-- A call that makes a request to the table: it is admitted, and binds each placeholder of the
request to a text, a number, a truth value or null. -/
structure Makes (i : Interceptor) (table : String) (columns : List SensitiveColumn)
    (used : String → Prop) (call : Call) (r : Request Entry) : Prop where
  matched : i.matchesId call.statement.id = true
  kind : call.statement.kind ≠ .unknown
  unmapped : call.statement.resultMaps = []
  parsed : Statement.parse i.dialect call.bound.sql = .ok (r.toStatement table)
  admissible : Admissible columns r
  legible : r.IsLegible i.dialect columns
  counted : call.bound.mappings.length = (r.toStatement table).countAnonymous
  scalars : ∀ value ∈ valuesOf call.bound, ∃ plain, value.plain? = some plain
  used : ∀ text ∈ sensitiveTexts columns (r.bind (valuesOf call.bound)), used text

variable {i : Interceptor} {handler : Handler} {table : String} {columns : List SensitiveColumn}
  {used : String → Prop} {call : Call} {r : Request Entry} {supply : Supply}

theorem Guards.replaces (guards : Guards i handler table columns)
    (makes : Makes i table columns used call r) :
    Replaces (call.sealing i handler (r.toStatement table)) table columns := by
  have tables : (r.toStatement table).referencedTables = [[.bare table]] := by
    have tables := r.tableNames_toStatement table
    cases r with
    | insert rowWord names rows =>
      have listed : ((Request.insert rowWord names rows).toStatement table).referencedTables =
          SealedColumns.distinct ([.bare table] ::
            ((Request.insert rowWord names rows).toStatement table).tableNames) := rfl
      rw [listed, tables]
      simp [SealedColumns.distinct]
    | select items condition =>
      have listed : ((Request.select items condition).toStatement table).referencedTables =
          SealedColumns.distinct
            ((Request.select items condition).toStatement table).tableNames := rfl
      rw [listed, tables]
      simp [SealedColumns.distinct]
  refine ⟨guards.layout, fun c => ?_, ?_, ?_, makes.unmapped⟩
  · simp only [Call.sealing, guards.catalog]
    exact guards.layout.resolve tables c
  · simp only [Call.sealing, guards.options]
  · simp only [Call.sealing, guards.options]

theorem Makes.prepared (makes : Makes i table columns used call r)
    (guards : Guards i handler table columns) (reliable : handler.Reliable)
    (fresh : supply.Fresh call.bound) :
    ∃ r' d, Passes (call.sealing i handler (r.toStatement table)) call.bound supply used table
        columns r.number r' d ∧
      i.prepare call.statement call.bound supply =
        (⟨d.parameters.toBound (r'.toStatement table).restore.render,
          ⟨call.statement.id, d.aliases⟩, true⟩, d.log ++ [.statementSealed], d.supply) := by
  have replaces := guards.replaces makes
  have setting : Setting (call.sealing i handler (r.toStatement table)) call.bound supply := by
    refine ⟨reliable, rfl, fresh, fun m input => makes.scalars _ ?_⟩
    exact List.mem_map_of_mem input
  obtain ⟨r', d, passes⟩ :=
    request_passes setting replaces makes.admissible makes.counted makes.used
  refine ⟨r', d, passes, ?_⟩
  have active : (ActiveColumns.resolve (r.toStatement table) i.catalog).isEmpty = false := by
    obtain ⟨c, member⟩ := List.exists_mem_of_ne_nil columns guards.layout.inhabited
    have known := (replaces.resolved c).mpr member
    rw [ActiveColumns.isEmpty, List.isEmpty_eq_false_iff_exists_mem]
    exact ⟨c, known⟩
  have tree : ((call.sealing i handler (r.toStatement table)).sealTree
      (r.toStatement table).number.1).Gives (draftOf call.bound supply)
        (r'.toStatement table) d := by
    rw [r.number_toStatement]
    exact passes.run
  have run := gives_sealStatement.mpr
    ⟨makes.counted.symm, _, tree, passes.counted makes.counted, rfl⟩
  have sealable : call.statement.kind.isSealable = true := by
    simp [StatementKind.isSealable, makes.kind]
  simp only [Interceptor.prepare, guards.handler, makes.matched, sealable, Bool.not_true,
    Bool.false_eq_true, if_false, Interceptor.sealText, makes.parsed, active]
  rw [sealBound_gives run]
  rfl

end Calls

end SealedColumns.Store
