import Mathlib.Data.List.Nodup
import Mathlib.Data.List.Pairwise
import Mathlib.Data.List.TakeWhile
import SealedColumns.ActiveColumns
import SealedColumns.Proofs.Reading
import SealedColumns.Proofs.Store.Binding

/-!
The layout of a table with sensitive columns whose names are plain and distinct, and what sealing
finds in it: under its own name each source column and nothing else.
-/
namespace SealedColumns.Store

open Sql

/-- A lower-case letter, a digit or an underscore. -/
def isPlainChar (c : Char) : Bool := c.isLower || c.isDigit || c == '_'

/-- A name that is the same in each form. -/
def Plain (name : String) : Prop := ∀ c ∈ name.toList, isPlainChar c = true

instance (name : String) : Decidable (Plain name) :=
  List.decidableBAll _ name.toList

theorem isPlainChar_range {c : Char} (plain : isPlainChar c = true) :
    (48 ≤ c.toNat ∧ c.toNat ≤ 57) ∨ c.toNat = 95 ∨ (97 ≤ c.toNat ∧ c.toNat ≤ 122) := by
  have lower : c.isLower = (decide (97 ≤ c.val) && decide (c.val ≤ 122)) := rfl
  simp only [isPlainChar, lower, Char.isDigit, Bool.or_eq_true, Bool.and_eq_true,
    decide_eq_true_eq, beq_iff_eq, ge_iff_le, UInt32.le_iff_toNat_le] at plain
  rcases plain with (⟨low, high⟩ | ⟨low, high⟩) | rfl
  · exact .inr (.inr ⟨low, high⟩)
  · exact .inl ⟨low, high⟩
  · exact .inr (.inl rfl)

theorem toLower_plain {c : Char} (plain : isPlainChar c = true) : c.toLower = c := by
  have range := isPlainChar_range plain
  rcases Text.toLower_eq_self_or c with same | ⟨upper, -⟩
  · exact same
  · omega

theorem isBlank_plain {c : Char} (plain : isPlainChar c = true) : Text.isBlank c = false := by
  have range := isPlainChar_range plain
  simp only [Text.isBlank, Bool.or_eq_false_iff, Bool.and_eq_false_iff, beq_eq_false_iff_ne, ne_eq,
    decide_eq_false_iff_not]
  omega

namespace Plain

variable {name : String}

theorem asciiLower (plain : Plain name) : Text.asciiLower name = name := by
  have letters : name.toList.map Char.toLower = name.toList.map id :=
    List.map_congr_left fun c member => toLower_plain (plain c member)
  rw [Text.asciiLower, letters, List.map_id, String.ofList_toList]

theorem dropWhile_blank {cs : List Char} (plain : ∀ c ∈ cs, isPlainChar c = true) :
    cs.dropWhile Text.isBlank = cs := by
  rw [List.dropWhile_eq_self_iff]
  intro some blank
  rw [isBlank_plain (plain _ (List.getElem_mem _))] at blank
  cases blank

theorem trim (plain : Plain name) : Text.trim name = name := by
  have turned : ∀ c ∈ name.toList.reverse, isPlainChar c = true := fun c member =>
    plain c (List.mem_reverse.mp member)
  rw [Text.trim, Text.trimChars, dropWhile_blank plain, dropWhile_blank turned,
    List.reverse_reverse, String.ofList_toList]

theorem unquotedBy? (plain : Plain name) {pair : Char × Char} (quotes : pair ∈ quotePairs) :
    SealedColumns.unquotedBy? name pair = none := by
  have quote : isPlainChar pair.1 = false := by
    revert pair
    decide
  have head : Text.dropHead? [pair.1] name.toList = none := by
    cases chars : name.toList with
    | nil => rfl
    | cons c rest =>
      have other : pair.1 ≠ c := by
        intro same
        have here := plain c (chars ▸ List.mem_cons_self)
        rw [← same, quote] at here
        cases here
      simp [Text.dropHead?, other]
  have single : (String.singleton pair.1).toList = [pair.1] := String.toList_singleton _
  simp only [SealedColumns.unquotedBy?, Text.between?, single, head, Option.bind_eq_bind,
    Option.bind_none]

theorem stripQuotes (plain : Plain name) : SealedColumns.stripQuotes name = name := by
  have none : quotePairs.findSome? (SealedColumns.unquotedBy? name) = none :=
    List.findSome?_eq_none_iff.mpr fun pair member => plain.unquotedBy? member
  rw [SealedColumns.stripQuotes, plain.trim, none, Option.getD_none]

theorem normalizeIdentifier (plain : Plain name) :
    SealedColumns.normalizeIdentifier name = name := by
  rw [SealedColumns.normalizeIdentifier, plain.stripQuotes, plain.asciiLower]

theorem normalized (plain : Plain name) : (Ident.bare name).normalized = name := plain.asciiLower

end Plain

def columnNames (c : SensitiveColumn) : List String := [c.source, c.target, c.index]

theorem source_mem (c : SensitiveColumn) : c.source ∈ columnNames c := List.mem_cons_self

theorem target_mem (c : SensitiveColumn) : c.target ∈ columnNames c := by simp [columnNames]

theorem index_mem (c : SensitiveColumn) : c.index ∈ columnNames c := by simp [columnNames]

/-- The sensitive columns of one table; all names are plain, and none stands for two things. -/
structure Layout (table : String) (columns : List SensitiveColumn) : Prop where
  inhabited : columns ≠ []
  tables : ∀ c ∈ columns, c.table = table
  plain : ∀ name ∈ table :: columns.flatMap columnNames, Plain name
  distinct : (table :: columns.flatMap columnNames).Nodup

/-- The sensitive column with that source. -/
def sensitive? (columns : List SensitiveColumn) (name : String) : Option SensitiveColumn :=
  columns.find? fun c => c.source == name

def Derived (columns : List SensitiveColumn) (name : String) : Prop :=
  ∃ c ∈ columns, c.target = name ∨ c.index = name

instance (columns : List SensitiveColumn) (name : String) : Decidable (Derived columns name) :=
  inferInstanceAs (Decidable (∃ c ∈ columns, c.target = name ∨ c.index = name))

/-- What is in the lists of two members is in the list of one. -/
theorem eq_of_mem_flatMap {α β : Type} {f : α → List β} {l : List α} (single : (l.flatMap f).Nodup)
    {a b : α} (first : a ∈ l) (second : b ∈ l) {x : β} (here : x ∈ f a) (there : x ∈ f b) :
    a = b := by
  have apart := (List.nodup_flatMap.mp single).2
  have symmetric : Std.Symm (Function.onFun List.Disjoint f) :=
    ⟨fun _ _ apart _ here there => apart there here⟩
  by_contra other
  exact (apart.forall first second other) here there

namespace Layout

variable {table : String} {columns : List SensitiveColumn} {c d : SensitiveColumn}

theorem plainTable (layout : Layout table columns) : Plain table :=
  layout.plain table List.mem_cons_self

theorem plainName (layout : Layout table columns) (member : c ∈ columns) {name : String}
    (named : name ∈ columnNames c) : Plain name :=
  layout.plain name (List.mem_cons_of_mem _ (List.mem_flatMap.mpr ⟨c, member, named⟩))

theorem normalized (layout : Layout table columns) (member : c ∈ columns) : c.normalized = c := by
  have plain : ∀ name ∈ columnNames c, Plain name := fun _ => layout.plainName member
  have known : Plain c.table := by
    rw [layout.tables c member]
    exact layout.plainTable
  simp only [columnNames, List.mem_cons, List.not_mem_nil, or_false, forall_eq_or_imp,
    forall_eq] at plain
  simp only [SensitiveColumn.normalized, known.normalizeIdentifier, plain.1.normalizeIdentifier,
    plain.2.1.stripQuotes, plain.2.2.stripQuotes]

theorem unique (layout : Layout table columns) (first : c ∈ columns) (second : d ∈ columns)
    {name : String} (here : name ∈ columnNames c) (there : name ∈ columnNames d) : c = d :=
  eq_of_mem_flatMap (List.nodup_cons.mp layout.distinct).2 first second here there

theorem apart (layout : Layout table columns) (first : c ∈ columns) (second : d ∈ columns)
    (other : c ≠ d) {a b : String} (here : a ∈ columnNames c) (there : b ∈ columnNames d) :
    a ≠ b := by
  rintro rfl
  exact other (layout.unique first second here there)

theorem names (layout : Layout table columns) (member : c ∈ columns) : (columnNames c).Nodup :=
  (List.nodup_flatMap.mp (List.nodup_cons.mp layout.distinct).2).1 c member

theorem sensitive?_source (layout : Layout table columns) (member : c ∈ columns) :
    Store.sensitive? columns c.source = some c := by
  unfold Store.sensitive?
  cases found : columns.find? fun d => d.source == c.source with
  | none =>
    have missed := List.find?_eq_none.mp found c member
    simp at missed
  | some d =>
    have same : d.source = c.source := by simpa using List.find?_some found
    have other := List.mem_of_find?_eq_some found
    rw [layout.unique member other (source_mem c) (same ▸ source_mem d)]

end Layout

theorem sensitive?_some {columns : List SensitiveColumn} {name : String} {c : SensitiveColumn}
    (found : sensitive? columns name = some c) : c ∈ columns ∧ c.source = name :=
  ⟨List.mem_of_find?_eq_some found, by simpa using List.find?_some found⟩

/-! What sealing looks up. -/

section Lookup

variable {table : String} {columns : List SensitiveColumn}

/-- The columns of the table once some of them are in the catalog. -/
def Gathered (known : List SensitiveColumn) (m : Members SensitiveColumn) : Prop :=
  ∀ key c, (key, c) ∈ m ↔ c ∈ known ∧ key = c.source

theorem Gathered.insert (layout : Layout table columns) {known : List SensitiveColumn}
    {m : Members SensitiveColumn} (gathered : Gathered known m)
    (inside : ∀ c ∈ known, c ∈ columns) {c : SensitiveColumn} (member : c ∈ columns)
    (fresh : c ∉ known) : Gathered (known ++ [c]) (m.insert c.source c) := by
  have absent : Members.get? c.source m = none := by
    cases found : Members.get? c.source m with
    | none => rfl
    | some d =>
      obtain ⟨old, same⟩ := (gathered _ _).mp (Members.mem_of_get? found)
      have other := layout.unique member (inside d old) (source_mem c) (same ▸ source_mem d)
      exact absurd (other ▸ old) fresh
  intro key d
  have insertion : m.insert c.source c = m.insertNew c.source c := by
    simp [Members.insert, Members.contains, absent]
  rw [insertion, Members.mem_insertNew, gathered, List.mem_append, List.mem_singleton,
    Prod.mk.injEq]
  constructor
  · rintro (⟨rfl, rfl⟩ | ⟨old, same⟩)
    · exact ⟨.inr rfl, rfl⟩
    · exact ⟨.inl old, same⟩
  · rintro ⟨old | rfl, same⟩
    · exact .inr ⟨old, same⟩
    · exact .inl ⟨same, rfl⟩

theorem add_columns (layout : Layout table columns) (single : columns.Nodup)
    {todo known : List SensitiveColumn} {m : Members SensitiveColumn}
    (gathered : Gathered known m) (whole : known ++ todo = columns) :
    ∃ m', todo.foldl Catalog.add [(table, m)] = [(table, m')] ∧ Gathered columns m' := by
  induction todo generalizing known m with
  | nil =>
    rw [List.append_nil] at whole
    rw [← whole]
    exact ⟨m, rfl, gathered⟩
  | cons c todo ih =>
    have inside : ∀ d ∈ known, d ∈ columns := fun d old => whole ▸ List.mem_append_left _ old
    have member : c ∈ columns := whole ▸ List.mem_append_right _ List.mem_cons_self
    have fresh : c ∉ known := by
      rw [← whole, List.nodup_append] at single
      exact fun old => single.2.2 c old c List.mem_cons_self rfl
    have added : Catalog.add [(table, m)] c = [(table, m.insert c.source c)] := by
      simp only [Catalog.add, layout.normalized member, layout.tables c member]
      rw [Members.get?_single, Option.getD_some, Members.insert_single]
    have split : (known ++ [c]) ++ todo = columns := by rw [List.append_assoc]; exact whole
    rw [List.foldl_cons, added]
    exact ih (gathered.insert layout inside member fresh) split

/-- The catalog of a layout has its table with its columns and nothing else. -/
theorem Layout.catalog (layout : Layout table columns) :
    ∃ m, Catalog.ofColumns columns = [(table, m)] ∧ Gathered columns m := by
  have single : columns.Nodup := by
    have apart := (List.nodup_flatMap.mp (List.nodup_cons.mp layout.distinct).2).2
    refine apart.imp fun {c d} disjoint same => ?_
    subst same
    exact disjoint (source_mem c) (source_mem c)
  cases columns with
  | nil => exact absurd rfl layout.inhabited
  | cons c rest =>
    have first : Catalog.add [] c = [(table, [(c.source, c)])] := by
      simp only [Catalog.add, layout.normalized List.mem_cons_self,
        layout.tables c List.mem_cons_self]
      rfl
    have gathered : Gathered [c] [(c.source, c)] := by
      intro key d
      simp only [List.mem_singleton, Prod.mk.injEq]
      constructor
      · rintro ⟨rfl, rfl⟩
        exact ⟨rfl, rfl⟩
      · rintro ⟨rfl, rfl⟩
        exact ⟨rfl, rfl⟩
    obtain ⟨m, shape, all⟩ := add_columns layout single gathered rfl
    refine ⟨m, ?_, all⟩
    rw [Catalog.ofColumns, List.foldl_cons, first, shape]

/-- A statement that names the table alone touches its columns. -/
theorem Layout.resolve (layout : Layout table columns) {t : Statement}
    (tables : t.referencedTables = [[.bare table]]) (c : SensitiveColumn) :
    c ∈ (ActiveColumns.resolve t (Catalog.ofColumns columns)).columns ↔ c ∈ columns := by
  obtain ⟨m, shape, gathered⟩ := layout.catalog
  have keys : tableKeys [.bare table] = [table] := by
    simp [tableKeys, layout.plainTable.normalized]
  have found : Catalog.tableOf? [(table, m)] [.bare table] = some table := by
    simp [Catalog.tableOf?, keys, Members.contains, Members.get?_single]
  have listed : Catalog.columnsOf [(table, m)] table = m.values := by
    simp [Catalog.columnsOf, Members.get?_single]
  have active : (ActiveColumns.resolve t (Catalog.ofColumns columns)).columns = m.values := by
    simp [ActiveColumns.resolve, tables, shape, found, SealedColumns.distinct, listed]
  rw [active, Members.values, List.mem_map]
  constructor
  · rintro ⟨⟨key, d⟩, member, rfl⟩
    exact ((gathered _ _).mp member).1
  · intro member
    exact ⟨(c.source, c), (gathered _ _).mpr ⟨member, rfl⟩, rfl⟩

variable {active : ActiveColumns}

/-- Candidates for a name are the one column with that source. -/
theorem Layout.candidates (layout : Layout table columns)
    (resolved : ∀ c, c ∈ active.columns ↔ c ∈ columns) {name : String} (plain : Plain name)
    (c : SensitiveColumn) :
    c ∈ active.candidates (.bare name) ↔ sensitive? columns name = some c := by
  rw [ActiveColumns.candidates, List.mem_filter, resolved, plain.normalized, beq_iff_eq]
  constructor
  · rintro ⟨member, rfl⟩
    exact layout.sensitive?_source member
  · exact sensitive?_some

theorem Layout.get? (layout : Layout table columns)
    (resolved : ∀ c, c ∈ active.columns ↔ c ∈ columns) {name : String} (plain : Plain name) :
    active.get? (.bare name) = sensitive? columns name := by
  have candidates := layout.candidates resolved plain
  unfold ActiveColumns.get?
  cases found : active.candidates (.bare name) with
  | nil =>
    cases known : sensitive? columns name with
    | none => rfl
    | some c =>
      have member := (candidates c).mpr known
      rw [found] at member
      cases member
  | cons c rest =>
    exact ((candidates c).mp (found ▸ List.mem_cons_self)).symm

theorem Layout.getIn? (layout : Layout table columns)
    (resolved : ∀ c, c ∈ active.columns ↔ c ∈ columns) (scope : List String) {name : String}
    (plain : Plain name) : active.getIn? scope (.bare name) = sensitive? columns name := by
  unfold ActiveColumns.getIn?
  cases found : (active.candidates (.bare name)).find? fun c => scope.contains c.table with
  | none => rw [Option.none_or, layout.get? resolved plain]
  | some c =>
    have member := List.mem_of_find?_eq_some found
    rw [Option.some_or, (layout.candidates resolved plain c).mp member]

theorem Layout.isDerived (layout : Layout table columns)
    (resolved : ∀ c, c ∈ active.columns ↔ c ∈ columns) {name : String} (plain : Plain name) :
    active.isDerived (.bare name) = true ↔ Derived columns name := by
  rw [ActiveColumns.isDerived, plain.normalized, List.any_eq_true]
  have derives : ∀ c ∈ columns, c.derives name = true ↔ c.target = name ∨ c.index = name := by
    intro c member
    have target : Plain c.target := layout.plainName member (target_mem c)
    have index : Plain c.index := layout.plainName member (index_mem c)
    simp [SensitiveColumn.derives, target.asciiLower, index.asciiLower]
  constructor
  · rintro ⟨c, member, here⟩
    have known := (resolved c).mp member
    exact ⟨c, known, (derives c known).mp here⟩
  · rintro ⟨c, member, here⟩
    exact ⟨c, (resolved c).mpr member, (derives c member).mpr here⟩

end Lookup

end SealedColumns.Store
