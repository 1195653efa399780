import SealedColumns.Proofs.Catalog

/-!
Which columns a statement can touch. A relation stands for the table that is configured under its
whole name or else under its last part; the tables come in the order in which relations first stand
for them, once each, and every one that has an entry for a column is a candidate for it.
-/
namespace SealedColumns

open Sql

namespace Sql

/-- All relations that a statement names: the target of an INSERT, and then in the order of the
walk. -/
def Statement.relations (t : Statement) : List Name :=
  (match t with | .insert x => [x.table] | _ => []) ++ t.visits.filterMap Visit.table?

theorem Statement.referencedTables_eq (t : Statement) :
    t.referencedTables = distinct t.relations := by
  cases t <;> simp [referencedTables, relations, tableNames_eq]

/-- The whole name of a relation, as it can be configured. -/
def dotted (name : Name) : String := Text.joinWith "." (name.map Ident.normalized)

end Sql

section Distinct

variable {α β : Type} [BEq α] [LawfulBEq α] [BEq β] [LawfulBEq β]

theorem distinct_filter (p : α → Bool) (l : List α) :
    distinct (l.filter p) = (distinct l).filter p := by
  induction l with
  | nil => rfl
  | cons a l ih =>
    by_cases holds : p a
    · simp only [List.filter_cons_of_pos holds, distinct, ih, List.filter_filter, Bool.and_comm]
    · have skipped : ((distinct l).filter (· != a)).filter p = (distinct l).filter p := by
        rw [List.filter_filter]
        refine List.filter_congr fun b _ => ?_
        by_cases same : b = a
        · simp [same, holds]
        · simp [same]
      rw [List.filter_cons_of_neg holds, ih, distinct, List.filter_cons_of_neg holds, skipped]

/-- Repetitions among the arguments make no difference to the distinct results. -/
theorem distinct_filterMap_distinct (f : α → Option β) (l : List α) :
    distinct ((distinct l).filterMap f) = distinct (l.filterMap f) := by
  induction l with
  | nil => rfl
  | cons a l ih =>
    cases result : f a with
    | none =>
      have skipped : ((distinct l).filter (· != a)).filterMap f = (distinct l).filterMap f := by
        rw [List.filterMap_filter]
        refine List.filterMap_congr fun b _ => ?_
        by_cases same : b = a
        · simp [same, result]
        · simp [same]
      rw [distinct, List.filterMap_cons_none result, List.filterMap_cons_none result, skipped, ih]
    | some b =>
      have skipped : (((distinct l).filter (· != a)).filterMap f).filter (· != b) =
          ((distinct l).filterMap f).filter (· != b) := by
        rw [← List.filterMap_eq_filter, List.filterMap_filterMap, List.filterMap_filter,
          List.filterMap_filterMap]
        refine List.filterMap_congr fun c _ => ?_
        by_cases same : c = a
        · simp [same, result, Option.guard]
        · simp [same]
      rw [distinct, List.filterMap_cons_some result, List.filterMap_cons_some result, distinct,
        distinct, ← distinct_filter, skipped, distinct_filter, ih]

/-- The distinct items come in the order in which they occur first. -/
theorem pairwise_distinct (l : List α) :
    (distinct l).Pairwise fun a b =>
      ∃ before after, l = before ++ a :: after ∧ b ∉ before ++ [a] := by
  induction l with
  | nil => exact .nil
  | cons a l ih =>
    rw [distinct, List.pairwise_cons]
    constructor
    · intro b member
      have other := (List.mem_filter.mp member).2
      rw [bne_iff_ne] at other
      exact ⟨[], l, rfl, by simpa using other⟩
    · refine List.Pairwise.imp_of_mem ?_ (ih.filter _)
      rintro b c - member ⟨before, after, rfl, later⟩
      have other := (List.mem_filter.mp member).2
      rw [bne_iff_ne] at other
      exact ⟨a :: before, after, rfl, by simpa [other] using later⟩

end Distinct

theorem Catalog.tableOf?_of_getLast? (catalog : Catalog) {name : Name} {last : Ident}
    (ends : name.getLast? = some last) :
    catalog.tableOf? name =
      if Members.contains (dotted name) catalog then some (dotted name)
      else if Members.contains last.normalized catalog then some last.normalized else none := by
  match name with
  | [only] =>
    have same : only = last := Option.some.inj ends
    subst same
    have whole : dotted [only] = only.normalized := rfl
    rw [whole, tableOf?, tableKeys, List.map_singleton, List.find?_singleton]
    split <;> rfl
  | first :: second :: parts =>
    have keys : tableKeys (first :: second :: parts) =
        [dotted (first :: second :: parts), last.normalized] := by
      have final := congrArg (Option.map Ident.normalized) ends
      rw [← List.getLast?_map] at final
      simp only [List.map_cons] at final
      simp only [tableKeys, List.map_cons, final]
      rfl
    rw [tableOf?, keys, List.find?_cons, List.find?_singleton]
    cases Members.contains (dotted (first :: second :: parts)) catalog <;> rfl

namespace Config

/-- The configured table that a relation stands for. -/
inductive StandsFor (config : Config) (name : Name) : String → Prop where
  | whole : name ≠ [] → config.Configures (dotted name) → StandsFor config name (dotted name)
  | bare {last : Ident} : name.getLast? = some last → ¬ config.Configures (dotted name) →
      config.Configures last.normalized → StandsFor config name last.normalized

theorem tableOf?_eq_some {config : Config} {name : Name} {key : String} :
    config.catalog.tableOf? name = some key ↔ config.StandsFor name key := by
  cases ends : name.getLast? with
  | none =>
    obtain rfl := List.getLast?_eq_none_iff.mp ends
    constructor
    · intro found
      cases found
    · intro stands
      cases stands with
      | whole parts _ => exact absurd rfl parts
      | bare last _ _ => cases last
  | some last =>
    have parts : name ≠ [] := by
      rintro rfl
      cases ends
    have known := config.contains_catalog
    rw [Catalog.tableOf?_of_getLast? _ ends]
    constructor
    · intro found
      split at found
      · rename_i whole
        obtain rfl := Option.some.inj found
        exact .whole parts ((known _).mp whole)
      · rename_i other
        split at found
        · rename_i bare
          obtain rfl := Option.some.inj found
          exact .bare ends (fun whole => other ((known _).mpr whole)) ((known _).mp bare)
        · cases found
    · intro stands
      cases stands with
      | whole _ whole => rw [if_pos ((known _).mpr whole)]
      | bare last' other bare =>
        obtain rfl := Option.some.inj (ends.symm.trans last')
        rw [if_neg fun whole => other ((known _).mp whole), if_pos ((known _).mpr bare)]

theorem StandsFor.unique {config : Config} {name : Name} {key key' : String}
    (stands : config.StandsFor name key) (stands' : config.StandsFor name key') : key = key' :=
  Option.some.inj ((tableOf?_eq_some.mpr stands).symm.trans (tableOf?_eq_some.mpr stands'))

/-- A relation of the statement stands for the one table, and neither it nor any before it stands
for the other. -/
def Earlier (config : Config) (t : Statement) (one two : String) : Prop :=
  ∃ before name after, t.relations = before ++ name :: after ∧ config.StandsFor name one ∧
    ∀ other ∈ before ++ [name], ¬ config.StandsFor other two

theorem Earlier.ne {config : Config} {t : Statement} {one two : String}
    (earlier : config.Earlier t one two) : one ≠ two := by
  rintro rfl
  obtain ⟨before, name, -, -, stands, others⟩ := earlier
  exact others name (List.mem_append_right before List.mem_cons_self) stands

/-- A table has an entry for the column that an identifier names. -/
def HasEntry (config : Config) (ident : Ident) (table : String) : Bool :=
  config.columns.any fun column => column.Names table ident.normalized

theorem hasEntry_iff {config : Config} {ident : Ident} {table : String} :
    config.HasEntry ident table = true ↔
      (config.catalog.filed? table ident.normalized).isSome = true := by
  rw [isSome_filed?, HasEntry, List.any_eq_true]
  simp only [decide_eq_true_eq]

end Config

/-- The active columns of a statement, in terms of the relations that it names and the entries that
are configured. -/
structure Resolution (config : Config) (t : Statement) (active : ActiveColumns) : Prop where
  tables : ∀ key, key ∈ active.tables ↔ ∃ name ∈ t.relations, config.StandsFor name key
  single : active.tables.Nodup
  order : active.tables.Pairwise (config.Earlier t)
  candidates : ∀ ident, (active.candidates ident).map SensitiveColumn.table =
    active.tables.filter (config.HasEntry ident)
  entries : ∀ ident, ∀ c ∈ active.candidates ident, config.Entry c.table ident.normalized c
  derived : ∀ ident, active.isDerived ident = true ↔
    ∃ table ∈ active.tables, ∃ source c, config.Entry table source c ∧
      (ident.normalized = Text.asciiLower c.target ∨ ident.normalized = Text.asciiLower c.index)
  empty : active.isEmpty = true ↔ ∀ name ∈ t.relations, ∀ key, ¬ config.StandsFor name key
  first : ∀ ident, active.get? ident = (active.candidates ident).head?
  inside : ∀ scope ident before c after, active.candidates ident = before ++ c :: after →
    (∀ other ∈ before, other.table ∉ scope) → c.table ∈ scope → active.getIn? scope ident = some c
  outside : ∀ scope ident, (∀ c ∈ active.candidates ident, c.table ∉ scope) →
    active.getIn? scope ident = active.get? ident

/-- Active columns that answer every question alike. -/
structure ActiveColumns.Alike (one two : ActiveColumns) : Prop where
  tables : one.tables = two.tables
  candidates : one.candidates = two.candidates
  get : one.get? = two.get?
  getIn : one.getIn? = two.getIn?
  derived : one.isDerived = two.isDerived
  empty : one.isEmpty = two.isEmpty

namespace ActiveColumns

theorem resolve_tables (t : Statement) (catalog : Catalog) :
    (resolve t catalog).tables = distinct (t.relations.filterMap catalog.tableOf?) := by
  simp only [resolve, Statement.referencedTables_eq, distinct_filterMap_distinct]

theorem resolve_columns (t : Statement) (catalog : Catalog) :
    (resolve t catalog).columns = (resolve t catalog).tables.flatMap catalog.columnsOf := rfl

theorem candidates_resolve (t : Statement) (catalog : Catalog) (ident : Ident) :
    (resolve t catalog).candidates ident = (resolve t catalog).tables.flatMap fun table =>
      (catalog.columnsOf table).filter fun c => c.source == ident.normalized := by
  rw [candidates, resolve_columns, List.filter_flatMap]

theorem candidates_catalog (t : Statement) (config : Config) (ident : Ident) :
    (resolve t config.catalog).candidates ident =
      (resolve t config.catalog).tables.filterMap fun table =>
        config.catalog.filed? table ident.normalized := by
  simp only [candidates_resolve, Config.catalog,
    (Catalog.filed_ofColumns config.columns).filter_columnsOf]
  generalize (resolve t (Catalog.ofColumns config.columns)).tables = tables
  induction tables with
  | nil => rfl
  | cons table tables ih =>
    rw [List.flatMap_cons, ih, List.filterMap_cons]
    cases (Catalog.ofColumns config.columns).filed? table ident.normalized <;> rfl

theorem mem_resolve_columns {t : Statement} {config : Config} {c : SensitiveColumn} :
    c ∈ (resolve t config.catalog).columns ↔
      ∃ table ∈ (resolve t config.catalog).tables, config.Entry table c.source c := by
  simp only [resolve_columns, List.mem_flatMap, Config.mem_columnsOf_catalog]

theorem mem_resolve_tables {t : Statement} {config : Config} {key : String} :
    key ∈ (resolve t config.catalog).tables ↔
      ∃ name ∈ t.relations, config.StandsFor name key := by
  simp only [resolve_tables, mem_distinct, List.mem_filterMap, Config.tableOf?_eq_some]

theorem resolve_order (config : Config) (t : Statement) :
    (resolve t config.catalog).tables.Pairwise (config.Earlier t) := by
  rw [resolve_tables]
  refine (pairwise_distinct _).imp ?_
  rintro one two ⟨before, after, split, later⟩
  obtain ⟨front, back, relations, rfl, found⟩ := List.filterMap_eq_append_iff.mp split
  obtain ⟨skipped, name, rest, rfl, none, stands, -⟩ := List.filterMap_eq_cons_iff.mp found
  refine ⟨front ++ skipped, name, rest, by rw [relations, List.append_assoc],
    Config.tableOf?_eq_some.mp stands, fun other member other' => ?_⟩
  have known := Config.tableOf?_eq_some.mpr other'
  rw [List.mem_append, List.mem_append, List.mem_singleton] at member
  rcases member with (early | skip) | rfl
  · exact later (List.mem_append_left _ (List.mem_filterMap.mpr ⟨other, early, known⟩))
  · rw [none other skip] at known
    cases known
  · rw [stands] at known
    exact later (by simp [Option.some.inj known])

theorem candidates_tables (config : Config) (t : Statement) (ident : Ident) :
    ((resolve t config.catalog).candidates ident).map SensitiveColumn.table =
      (resolve t config.catalog).tables.filter (config.HasEntry ident) := by
  rw [candidates_catalog]
  induction (resolve t config.catalog).tables with
  | nil => rfl
  | cons table tables ih =>
    have known := @Config.hasEntry_iff config ident table
    cases found : config.catalog.filed? table ident.normalized with
    | none =>
      have unknown : ¬ config.HasEntry ident table = true := by simp [known, found]
      rw [List.filter_cons_of_neg unknown, ← ih]
      simp only [List.filterMap_cons, found]
    | some c =>
      have here : c.table = table := ((config.filed?_catalog _ _ _).mp found).table
      have entry : config.HasEntry ident table = true := by simp [known, found]
      rw [List.filter_cons_of_pos entry, ← ih]
      simp only [List.filterMap_cons, found, List.map_cons, here]

theorem getIn?_inside {active : ActiveColumns} {scope : List String} {ident : Ident}
    {before after : List SensitiveColumn} {c : SensitiveColumn}
    (split : active.candidates ident = before ++ c :: after)
    (others : ∀ other ∈ before, other.table ∉ scope) (inside : c.table ∈ scope) :
    active.getIn? scope ident = some c := by
  have found : (active.candidates ident).find? (fun c => scope.contains c.table) = some c :=
    List.find?_eq_some_iff_append.mpr ⟨List.contains_iff_mem.mpr inside, before, after, split,
      fun other member => by simpa using others other member⟩
  rw [getIn?, found, Option.some_or]

theorem getIn?_outside {active : ActiveColumns} {scope : List String} {ident : Ident}
    (others : ∀ c ∈ active.candidates ident, c.table ∉ scope) :
    active.getIn? scope ident = active.get? ident := by
  have none : (active.candidates ident).find? (fun c => scope.contains c.table) = none :=
    List.find?_eq_none.mpr fun c member => by simpa using others c member
  rw [getIn?, none, Option.none_or]

theorem resolution_resolve (config : Config) (t : Statement) :
    Resolution config t (resolve t config.catalog) where
  tables _ := mem_resolve_tables
  single := (resolve_order config t).imp Config.Earlier.ne
  order := resolve_order config t
  candidates := candidates_tables config t
  entries ident c member := by
    have entry := mem_resolve_columns.mp (List.mem_filter.mp member).1
    have source : c.source = ident.normalized := beq_iff_eq.mp (List.mem_filter.mp member).2
    obtain ⟨table, -, entry⟩ := entry
    have here := entry.table
    rwa [here, ← source]
  derived ident := by
    simp only [isDerived, List.any_eq_true, mem_resolve_columns, SensitiveColumn.derives,
      Bool.or_eq_true, beq_iff_eq]
    constructor
    · rintro ⟨c, ⟨table, active, entry⟩, named⟩
      exact ⟨table, active, c.source, c, entry, named.imp Eq.symm Eq.symm⟩
    · rintro ⟨table, active, source, c, entry, named⟩
      obtain rfl := entry.source
      exact ⟨c, ⟨table, active, entry⟩, named.imp Eq.symm Eq.symm⟩
  empty := by
    have some : (resolve t config.catalog).isEmpty = false ↔
        ∃ name ∈ t.relations, (config.catalog.tableOf? name).isSome = true := by
      have inhabited := Catalog.inhabited_ofColumns config.columns
      simpa only [Config.catalog, Statement.referencedTables_eq, mem_distinct] using
        isEmpty_resolve inhabited t
    constructor
    · intro empty name member key stands
      have active := some.mpr ⟨name, member, by rw [Config.tableOf?_eq_some.mpr stands]; rfl⟩
      rw [empty] at active
      cases active
    · intro none
      by_contra active
      obtain ⟨name, member, known⟩ := some.mp (Bool.eq_false_iff.mpr active)
      obtain ⟨key, found⟩ := Option.isSome_iff_exists.mp known
      exact none name member key (Config.tableOf?_eq_some.mp found)
  first _ := rfl
  inside _ _ _ _ _ := getIn?_inside
  outside _ _ := getIn?_outside

theorem alike_resolve {catalog catalog' : Catalog} (alike : Catalog.Alike catalog catalog')
    (t : Statement) : Alike (resolve t catalog) (resolve t catalog') := by
  have tables : (resolve t catalog).tables = (resolve t catalog').tables := by
    have same : catalog.tableOf? = catalog'.tableOf? := by
      funext name
      simp only [Catalog.tableOf?, alike.contains]
    rw [resolve_tables, resolve_tables, same]
  have candidates : (resolve t catalog).candidates = (resolve t catalog').candidates := by
    funext ident
    simp only [candidates_resolve, tables, alike.entries]
  have get : (resolve t catalog).get? = (resolve t catalog').get? := by
    funext ident
    rw [get?, get?, candidates]
  have members : ∀ c, c ∈ (resolve t catalog).columns ↔ c ∈ (resolve t catalog').columns := by
    intro c
    simp only [resolve_columns, tables, List.mem_flatMap]
    refine exists_congr fun table => and_congr_right fun _ => ?_
    have filtered := congrArg (c ∈ ·) (alike.entries table c.source)
    simpa only [List.mem_filter, beq_self_eq_true, and_true, eq_iff_iff] using filtered
  refine ⟨tables, candidates, get, ?_, ?_, ?_⟩
  · funext scope ident
    rw [getIn?, getIn?, candidates, get]
  · funext ident
    rw [Bool.eq_iff_iff, isDerived, isDerived, List.any_eq_true, List.any_eq_true]
    simp only [members]
  · rw [Bool.eq_iff_iff, isEmpty, isEmpty, List.isEmpty_iff, List.isEmpty_iff,
      List.eq_nil_iff_forall_not_mem, List.eq_nil_iff_forall_not_mem]
    simp only [members]

end ActiveColumns

namespace Catalog

def reversed (catalog : Catalog) : Catalog := catalog.reverse.map fun x => (x.1, x.2.reverse)

theorem reordered_reversed (catalog : Catalog) : catalog.Reordered catalog.reversed := by
  refine ⟨catalog.reverse, (List.reverse_perm catalog).symm, ?_⟩
  rw [reversed, List.forall₂_map_right_iff]
  exact List.forall₂_same.mpr fun x _ => ⟨rfl, (List.reverse_perm x.2).symm⟩

end Catalog

/-- What a statement can touch is decided by its relations and the configured entries alone, however
the catalog orders its tables and their entries. -/
theorem active_columns_resolved (config : Config) (t : Statement) :
    Resolution config t (.resolve t config.catalog) ∧
      ∀ catalog : Catalog, config.catalog.Reordered catalog →
        (ActiveColumns.resolve t config.catalog).Alike (.resolve t catalog) := by
  refine ⟨ActiveColumns.resolution_resolve config t, fun catalog reordered => ?_⟩
  have single := Catalog.single_ofColumns config.columns
  have alike := reordered.alike (Catalog.filed_ofColumns config.columns) single
  exact ActiveColumns.alike_resolve alike t

namespace Sample

/-- Two tables with a source column of one name. -/
def sharedConfig : Config :=
  { config with columns := [⟨"users", "ssn", "ssn_enc", "ssn_idx"⟩,
    ⟨"accounts", "ssn", "acc_enc", "acc_idx"⟩, ⟨"users", "email", "email_enc", "email_idx"⟩] }

/-- `SELECT ssn FROM App.Users CROSS JOIN accounts CROSS JOIN users`. -/
def sharedStatement : Statement :=
  .query ⟨false, [], .select ⟨.standard, [], [⟨.column [] (.bare "ssn"), none⟩],
    [⟨.table [.bare "App", .bare "Users"] false [] none,
      [⟨.cross, false, .table [.bare "accounts"] false [] none, none, []⟩,
        ⟨.cross, false, .table [.bare "users"] false [] none, none, []⟩]⟩], none, []⟩, []⟩

end Sample

open Sample in
example : (ActiveColumns.resolve sharedStatement sharedConfig.catalog).tables =
    ["users", "accounts"] := by
  decide +kernel

open Sample in
theorem active_columns_resolved_reversed : sharedConfig.catalog ≠ sharedConfig.catalog.reversed ∧
    (ActiveColumns.resolve sharedStatement sharedConfig.catalog).Alike
      (.resolve sharedStatement sharedConfig.catalog.reversed) :=
  ⟨by decide +kernel, (active_columns_resolved sharedConfig sharedStatement).2 _
    (Catalog.reordered_reversed sharedConfig.catalog)⟩

end SealedColumns
