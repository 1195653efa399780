import Mathlib.Data.List.Induction
import SealedColumns.Proofs.Entries

/-!
What the catalog of a configuration answers: which tables it knows, and which entry it has for a
source column of a table. Neither depends on the order in which the catalog keeps them.
-/
namespace SealedColumns

open Sql

/-- The column that an entry configures, under the names that are compared. -/
def SensitiveColumn.Names (table source : String) (column : SensitiveColumn) : Prop :=
  column.normalized.table = table ∧ column.normalized.source = source

instance (table source : String) : DecidablePred (SensitiveColumn.Names table source) :=
  fun _ => inferInstanceAs (Decidable (_ ∧ _))

/-- The last of the items with a property. -/
def LastWith {α : Type} (p : α → Prop) (l : List α) (a : α) : Prop :=
  ∃ before after, l = before ++ a :: after ∧ p a ∧ ∀ later ∈ after, ¬ p later

theorem lastWith_concat {α : Type} {p : α → Prop} {l : List α} {a b : α} :
    LastWith p (l ++ [b]) a ↔ p b ∧ a = b ∨ ¬ p b ∧ LastWith p l a := by
  constructor
  · rintro ⟨before, after, split, holds, last⟩
    rcases List.eq_nil_or_concat after with rfl | ⟨after, final, rfl⟩
    · obtain ⟨-, same⟩ := List.append_inj' split rfl
      obtain rfl := List.singleton_inj.mp same
      exact .inl ⟨holds, rfl⟩
    · rw [List.concat_eq_append, ← List.cons_append, ← List.append_assoc] at split
      obtain ⟨rfl, same⟩ := List.append_inj' split rfl
      obtain rfl := List.singleton_inj.mp same
      exact .inr ⟨last _ (by simp), before, after, rfl, holds,
        fun later member => last later (by simp [member])⟩
  · rintro (⟨holds, rfl⟩ | ⟨other, before, after, rfl, holds, last⟩)
    · exact ⟨l, [], rfl, holds, fun _ none => by cases none⟩
    · refine ⟨before, after ++ [b], by simp, holds, fun later member => ?_⟩
      rcases List.mem_append.mp member with earlier | final
      · exact last later earlier
      · rwa [List.mem_singleton.mp final]

theorem exists_lastWith {α : Type} {p : α → Prop} {l : List α} :
    (∃ a, LastWith p l a) ↔ ∃ a ∈ l, p a := by
  induction l using List.reverseRecOn with
  | nil => simp [LastWith]
  | append_singleton l b ih =>
    simp only [lastWith_concat, List.mem_append, List.mem_singleton]
    by_cases holds : p b
    · simp only [holds, true_and, not_true_eq_false, false_and, or_false, exists_eq, true_iff]
      exact ⟨b, .inr rfl, holds⟩
    · simp only [holds, false_and, not_false_eq_true, true_and, false_or, ih]
      refine exists_congr fun a => and_congr_left fun here => ?_
      simp only [iff_self_or]
      rintro rfl
      exact absurd here holds

namespace Catalog

/-- The entry of a table for a source column. -/
def filed? (catalog : Catalog) (table source : String) : Option SensitiveColumn :=
  (Members.get? table catalog).bind (Members.get? source)

theorem filed?_add (catalog : Catalog) (column : SensitiveColumn) (table source : String) :
    (catalog.add column).filed? table source =
      if column.Names table source then some column.normalized
      else catalog.filed? table source := by
  simp only [filed?, add, Members.get?_insert, SensitiveColumn.Names, eq_comm (a := table)]
  by_cases same : column.normalized.table = table
  · subst same
    simp only [true_and, if_true, Option.bind_some, Members.get?_insert, eq_comm (a := source)]
    split
    · rfl
    · cases Members.get? column.normalized.table catalog <;> rfl
  · simp only [same, false_and, if_false]

theorem contains_add (catalog : Catalog) (column : SensitiveColumn) (table : String) :
    Members.contains table (catalog.add column) = true ↔
      column.normalized.table = table ∨ Members.contains table catalog = true := by
  simp only [Members.contains, add, Members.get?_insert]
  by_cases same : table = column.normalized.table
  · simp [same]
  · simp [same, Ne.symm same]

theorem ofColumns_concat (columns : List SensitiveColumn) (column : SensitiveColumn) :
    ofColumns (columns ++ [column]) = (ofColumns columns).add column :=
  List.foldl_concat _ _ _ _

theorem single_ofColumns (columns : List SensitiveColumn) :
    (Members.keys (ofColumns columns)).Nodup := by
  induction columns using List.reverseRecOn with
  | nil => exact List.nodup_nil
  | append_singleton columns column ih =>
    rw [ofColumns_concat]
    exact Members.nodup_insert ih _ _

theorem Filed.filter_columnsOf {columns : List SensitiveColumn} {catalog : Catalog}
    (filed : Filed columns catalog) (table source : String) :
    (catalog.columnsOf table).filter (fun c => c.source == source) =
      (catalog.filed? table source).toList := by
  unfold columnsOf filed?
  cases found : Members.get? table catalog with
  | none => rfl
  | some entries =>
    have named := fun pair member => (filed.entry table entries found pair member).2.1
    have single := filed.single table entries found
    simp only [Option.getD_some, Option.bind_some]
    clear found
    induction entries with
    | nil => rfl
    | cons pair rest ih =>
      obtain ⟨name, c⟩ := pair
      obtain ⟨new, single⟩ := List.nodup_cons.mp single
      have here : c.source = name := named _ List.mem_cons_self
      have later := ih (fun pair member => named pair (List.mem_cons_of_mem _ member)) single
      simp only [Members.values, List.map_cons, List.filter_cons, Members.get?, here,
        beq_iff_eq] at later ⊢
      by_cases same : name = source
      · subst same
        have absent : Members.get? name rest = none := by
          rw [← Option.not_isSome_iff_eq_none, Members.get?_isSome_iff]
          exact new
        rw [if_pos rfl, if_pos rfl, later, absent]
        rfl
      · rw [if_neg same, if_neg same, later]

/-- Two catalogs that answer alike: they know the same tables, and the same entry of each for every
source. -/
structure Alike (catalog catalog' : Catalog) : Prop where
  contains : ∀ table, Members.contains table catalog = Members.contains table catalog'
  entries : ∀ table source, (catalog.columnsOf table).filter (fun c => c.source == source) =
    (catalog'.columnsOf table).filter (fun c => c.source == source)

/-- The same tables, each with the same entries, in any order. -/
def Reordered (catalog catalog' : Catalog) : Prop :=
  ∃ middle : Catalog, catalog.Perm middle ∧
    List.Forall₂ (fun one two => one.1 = two.1 ∧ one.2.Perm two.2) middle catalog'

end Catalog

namespace Members

variable {α : Type} {m m' : Members α}

theorem get?_perm (same : m.Perm m') (single : m.keys.Nodup) (key : String) :
    m'.get? key = m.get? key := by
  have single' : m'.keys.Nodup := (same.map Prod.fst).nodup_iff.mp single
  cases found : m.get? key with
  | some value => exact get?_of_mem single' (same.mem_iff.mp (mem_of_get? found))
  | none =>
    cases found' : m'.get? key with
    | none => rfl
    | some value =>
      have here := get?_of_mem single (same.mem_iff.mpr (mem_of_get? found'))
      rw [found] at here
      cases here

theorem get?_forall₂ {β : Type} {related : α → β → Prop} {n : Members β}
    (same : List.Forall₂ (fun one two => one.1 = two.1 ∧ related one.2 two.2) m n) (key : String) :
    Option.Rel related (m.get? key) (n.get? key) := by
  induction same with
  | nil => exact .none
  | @cons one two _ _ here _ ih =>
    obtain ⟨name, value⟩ := one
    obtain ⟨name', value'⟩ := two
    obtain ⟨rfl, here⟩ := here
    simp only [get?]
    split
    · exact .some here
    · exact ih

end Members

namespace Catalog

theorem Reordered.get? {catalog catalog' : Catalog} (reordered : catalog.Reordered catalog')
    (single : (Members.keys catalog).Nodup) (table : String) :
    Option.Rel List.Perm (Members.get? table catalog) (Members.get? table catalog') := by
  obtain ⟨middle, same, related⟩ := reordered
  rw [← Members.get?_perm same single table]
  exact Members.get?_forall₂ related table

theorem Reordered.filed {columns : List SensitiveColumn} {catalog catalog' : Catalog}
    (reordered : catalog.Reordered catalog') (filed : Filed columns catalog)
    (single : (Members.keys catalog).Nodup) : Filed columns catalog' := by
  have back : ∀ table entries, Members.get? table catalog' = some entries →
      ∃ entries', Members.get? table catalog = some entries' ∧ entries'.Perm entries := by
    intro table entries known
    have here := reordered.get? single table
    rw [known] at here
    generalize Members.get? table catalog = one at here
    cases here with
    | some perm => exact ⟨_, rfl, perm⟩
  constructor
  · intro table entries known pair member
    obtain ⟨entries', known', perm⟩ := back table entries known
    exact filed.entry table entries' known' pair (perm.mem_iff.mpr member)
  · intro table entries known
    obtain ⟨entries', known', perm⟩ := back table entries known
    exact (perm.map Prod.fst).nodup_iff.mp (filed.single table entries' known')

theorem Reordered.filed? {columns : List SensitiveColumn} {catalog catalog' : Catalog}
    (reordered : catalog.Reordered catalog') (filed : Filed columns catalog)
    (single : (Members.keys catalog).Nodup) (table source : String) :
    catalog.filed? table source = catalog'.filed? table source := by
  have here := reordered.get? single table
  unfold Catalog.filed?
  cases known : Members.get? table catalog with
  | none =>
    rw [known] at here
    generalize Members.get? table catalog' = two at here ⊢
    cases here
    rfl
  | some entries =>
    rw [known] at here
    generalize Members.get? table catalog' = two at here ⊢
    cases here with
    | some perm => exact (Members.get?_perm perm (filed.single table entries known) source).symm

theorem Reordered.alike {columns : List SensitiveColumn} {catalog catalog' : Catalog}
    (reordered : catalog.Reordered catalog') (filed : Filed columns catalog)
    (single : (Members.keys catalog).Nodup) : Alike catalog catalog' := by
  constructor
  · intro table
    have here := reordered.get? single table
    unfold Members.contains
    generalize Members.get? table catalog = one at here ⊢
    generalize Members.get? table catalog' = two at here ⊢
    cases here <;> rfl
  · intro table source
    rw [filed.filter_columnsOf, (reordered.filed filed single).filter_columnsOf,
      reordered.filed? filed single]

end Catalog

namespace Config

def Configures (config : Config) (table : String) : Prop :=
  ∃ column ∈ config.columns, column.normalized.table = table

/-- The entry that counts for a source column of a table: the last one listed for it. -/
def Entry (config : Config) (table source : String) (c : SensitiveColumn) : Prop :=
  ∃ column, LastWith (SensitiveColumn.Names table source) config.columns column ∧
    column.normalized = c

theorem contains_catalog (config : Config) (table : String) :
    Members.contains table config.catalog = true ↔ config.Configures table := by
  have grown : ∀ columns : List SensitiveColumn,
      Members.contains table (Catalog.ofColumns columns) = true ↔
        ∃ column ∈ columns, column.normalized.table = table := by
    intro columns
    induction columns using List.reverseRecOn with
    | nil => simp [Catalog.ofColumns, Members.contains, Members.get?]
    | append_singleton columns column ih =>
      rw [Catalog.ofColumns_concat, Catalog.contains_add, ih]
      simp only [List.mem_append, List.mem_singleton, or_and_right, exists_or, exists_eq_left,
        or_comm]
  exact grown config.columns

theorem filed?_catalog (config : Config) (table source : String) (c : SensitiveColumn) :
    config.catalog.filed? table source = some c ↔ config.Entry table source c := by
  have grown : ∀ columns : List SensitiveColumn,
      (Catalog.ofColumns columns).filed? table source = some c ↔
        ∃ column, LastWith (SensitiveColumn.Names table source) columns column ∧
          column.normalized = c := by
    intro columns
    induction columns using List.reverseRecOn with
    | nil => simp [Catalog.ofColumns, Catalog.filed?, Members.get?, LastWith]
    | append_singleton columns column ih =>
      rw [Catalog.ofColumns_concat, Catalog.filed?_add]
      simp only [lastWith_concat]
      by_cases named : column.Names table source
      · rw [if_pos named]
        simp only [named, true_and, not_true_eq_false, false_and, or_false, exists_eq_left,
          Option.some.injEq]
      · rw [if_neg named, ih]
        simp only [named, false_and, not_false_eq_true, true_and, false_or]
  exact grown config.columns

theorem isSome_filed? (config : Config) (table source : String) :
    (config.catalog.filed? table source).isSome = true ↔
      ∃ column ∈ config.columns, column.Names table source := by
  simp only [Option.isSome_iff_exists, filed?_catalog, Entry]
  rw [exists_comm, ← exists_lastWith]
  simp only [exists_and_left, exists_eq', and_true]

theorem mem_columnsOf_catalog {config : Config} {table : String} {c : SensitiveColumn} :
    c ∈ config.catalog.columnsOf table ↔ config.Entry table c.source c := by
  have filtered := (Catalog.filed_ofColumns config.columns).filter_columnsOf table c.source
  rw [← filed?_catalog, ← Option.mem_toList, catalog, ← filtered]
  simp only [List.mem_filter, beq_self_eq_true, and_true]

theorem Entry.table {config : Config} {table source : String} {c : SensitiveColumn}
    (entry : config.Entry table source c) : c.table = table := by
  obtain ⟨column, ⟨_, _, _, ⟨named, _⟩, _⟩, rfl⟩ := entry
  exact named

theorem Entry.source {config : Config} {table source : String} {c : SensitiveColumn}
    (entry : config.Entry table source c) : c.source = source := by
  obtain ⟨column, ⟨_, _, _, ⟨_, named⟩, _⟩, rfl⟩ := entry
  exact named

end Config

end SealedColumns
