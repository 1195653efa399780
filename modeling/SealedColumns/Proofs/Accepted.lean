import SealedColumns.Proofs.Naming
import SealedColumns.Proofs.Resolution

/-!
What a configuration that was accepted keeps. No entry replaces another, and each one works for the
statements that touch its table: its source column finds it, and only the columns that are derived
from a source count as derived.
-/
namespace SealedColumns

open Sql

namespace SensitiveColumn

def names (c : SensitiveColumn) : List String := [c.table, c.source, c.target, c.index]

theorem normalized_target (c : SensitiveColumn) : c.normalized.target = stripQuotes c.target := by
  rw [normalized]

theorem normalized_index (c : SensitiveColumn) : c.normalized.index = stripQuotes c.index := by
  rw [normalized]

/-- The columns of an entry. -/
def columns (c : SensitiveColumn) : List String := [c.source, c.target, c.index]

end SensitiveColumn

namespace Config

theorem emptyField?_eq_none {c : SensitiveColumn} :
    emptyField? c = none ↔ ∀ name ∈ c.names, Text.isBlankText name = false := by
  simp [emptyField?, SensitiveColumn.names]

/-- What is asked of a single entry. -/
structure EntryAccepted (c : SensitiveColumn) : Prop where
  filled : ∀ name ∈ c.names, Text.isBlankText name = false
  apart : (comparable c).columns.Nodup

def place (c : SensitiveColumn) : String × String :=
  ((comparable c).table, (comparable c).source)

theorem checkEntries_cons (seen : List (String × String)) (c : SensitiveColumn)
    (entries : List SensitiveColumn) :
    checkEntries seen (c :: entries) = .ok () ↔
      EntryAccepted c ∧ place c ∉ seen ∧ checkEntries (place c :: seen) entries = .ok () := by
  have apart : (comparable c).columns.Nodup ↔
      ((comparable c).source = (comparable c).target || (comparable c).source =
        (comparable c).index || (comparable c).target = (comparable c).index) = false := by
    simp [SensitiveColumn.columns, and_assoc]
  rw [checkEntries]
  constructor
  · intro accepted
    split at accepted
    · cases accepted
    · rename_i filled
      dsimp only at accepted
      split at accepted
      · cases accepted
      · rename_i different
        split at accepted
        · cases accepted
        · rename_i new
          exact ⟨⟨emptyField?_eq_none.mp filled, apart.mpr (Bool.not_eq_true _ ▸ different)⟩,
            fun known => new (List.contains_iff_mem.mpr known), accepted⟩
  · rintro ⟨⟨filled, different⟩, new, accepted⟩
    have unknown : seen.contains ((comparable c).table, (comparable c).source) = false :=
      Bool.eq_false_iff.mpr fun known => new (List.contains_iff_mem.mp known)
    simp only [emptyField?_eq_none.mpr filled, apart.mp different, unknown, Bool.false_eq_true,
      if_false]
    exact accepted

theorem checkEntries_eq_ok (seen : List (String × String)) (entries : List SensitiveColumn) :
    checkEntries seen entries = .ok () ↔
      (∀ c ∈ entries, EntryAccepted c ∧ place c ∉ seen) ∧ (entries.map place).Nodup := by
  induction entries generalizing seen with
  | nil => simp [checkEntries]
  | cons c entries ih =>
    rw [checkEntries_cons, ih, List.forall_mem_cons, List.map_cons, List.nodup_cons]
    constructor
    · rintro ⟨here, new, others, single⟩
      refine ⟨⟨⟨here, new⟩, fun other member => ?_⟩, fun again => ?_, single⟩
      · obtain ⟨accepted, unseen⟩ := others other member
        exact ⟨accepted, fun known => unseen (List.mem_cons_of_mem _ known)⟩
      · obtain ⟨other, member, same⟩ := List.mem_map.mp again
        have seen := (others other member).2
        rw [same] at seen
        exact seen List.mem_cons_self
    · rintro ⟨⟨⟨here, new⟩, others⟩, fresh, single⟩
      refine ⟨here, new, fun other member => ⟨(others other member).1, fun known => ?_⟩, single⟩
      rcases List.mem_cons.mp known with same | known
      · exact fresh (List.mem_map.mpr ⟨other, member, same⟩)
      · exact (others other member).2 known

theorem overlap?_eq_none_iff (columns : List SensitiveColumn) :
    overlap? columns = none ↔
      ∀ c ∈ columns, ∀ other ∈ columns, (comparable other).table = (comparable c).table →
        (comparable other).target ≠ (comparable c).source ∧
          (comparable other).index ≠ (comparable c).source := by
  simp only [overlap?, List.find?_eq_none, List.forall_mem_map, Bool.not_eq_true,
    List.any_eq_false, Bool.and_eq_true, Bool.or_eq_true, beq_iff_eq, not_and, not_or]

/-- What is asked of a configuration as a whole. -/
structure Accepted (config : Config) : Prop where
  dialect : (Sql.Dialect.ofName? config.dialect).isSome = true
  entries : ∀ c ∈ config.columns, EntryAccepted c
  single : (config.columns.map place).Nodup
  sources : ∀ c ∈ config.columns, ∀ other ∈ config.columns,
    (comparable other).table = (comparable c).table →
      (comparable other).target ≠ (comparable c).source ∧
      (comparable other).index ≠ (comparable c).source

theorem validateColumns_eq_ok (config : Config) :
    config.validateColumns = .ok () ↔ config.Accepted := by
  have stages : config.validateColumns = .ok () ↔
      (Sql.Dialect.ofName? config.dialect).isSome = true ∧
        checkEntries [] config.columns = .ok () ∧ overlap? config.columns = none := by
    unfold validateColumns
    cases Sql.Dialect.ofName? config.dialect with
    | none => simp [throw, throwThe, MonadExceptOf.throw, bind, Except.bind]
    | some dialect =>
      cases checkEntries [] config.columns with
      | error fault => simp [bind, Except.bind]
      | ok =>
        cases overlap? config.columns with
        | none => simp [bind, Except.bind, pure, Except.pure]
        | some pair => simp [throw, throwThe, MonadExceptOf.throw, bind, Except.bind]
  rw [stages, checkEntries_eq_ok, overlap?_eq_none_iff]
  constructor
  · rintro ⟨dialect, ⟨entries, single⟩, sources⟩
    exact ⟨dialect, fun c member => (entries c member).1, single, sources⟩
  · rintro ⟨dialect, entries, single, sources⟩
    exact ⟨dialect, ⟨fun c member => ⟨entries c member, List.not_mem_nil⟩, single⟩, sources⟩

namespace Accepted

variable {config : Config} (accepted : config.Accepted)

include accepted

/-- Every entry that is listed counts. -/
theorem entry {column : SensitiveColumn} (listed : column ∈ config.columns) :
    config.Entry column.normalized.table column.normalized.source column.normalized := by
  obtain ⟨before, after, split⟩ := List.append_of_mem listed
  refine ⟨column, ⟨before, after, split, ⟨rfl, rfl⟩, fun later member named => ?_⟩, rfl⟩
  have single := accepted.single
  rw [split, List.map_append, List.map_cons] at single
  have new := (List.nodup_cons.mp (List.nodup_append.mp single).2.1).1
  exact new (List.mem_map.mpr ⟨later, member, Prod.ext named.1 named.2⟩)

theorem nodup_normalized : (config.columns.map SensitiveColumn.normalized).Nodup := by
  have single := accepted.single
  have places : config.columns.map place =
      (config.columns.map SensitiveColumn.normalized).map fun c => (c.table, c.source) := by
    rw [List.map_map]
    rfl
  rw [places] at single
  exact single.of_map _

end Accepted

end Config

namespace Catalog

def entries (catalog : Catalog) : List SensitiveColumn := catalog.flatMap fun x => x.2.values

variable {columns : List SensitiveColumn} {catalog : Catalog}

theorem Filed.nodup_entries (filed : Filed columns catalog)
    (single : (Members.keys catalog).Nodup) : catalog.entries.Nodup := by
  have known : ∀ x ∈ catalog, Members.get? x.1 catalog = some x.2 := fun x member =>
    Members.get?_of_mem single member
  refine List.nodup_flatMap.mpr ⟨fun x member => ?_, ?_⟩
  · have sources : x.2.values.map SensitiveColumn.source = x.2.keys := by
      rw [Members.values, Members.keys, List.map_map]
      exact List.map_congr_left fun pair here =>
        (filed.entry x.1 x.2 (known x member) pair here).2.1
    have once := filed.single x.1 x.2 (known x member)
    rw [← sources] at once
    exact once.of_map _
  · refine List.Pairwise.imp_of_mem ?_ (List.pairwise_map.mp single)
    intro x y member member' other c here there
    obtain ⟨pair, listed, rfl⟩ := List.mem_map.mp here
    obtain ⟨pair', listed', same⟩ := List.mem_map.mp there
    have table := (filed.entry x.1 x.2 (known x member) pair listed).1
    have table' := (filed.entry y.1 y.2 (known y member') pair' listed').1
    rw [same] at table'
    exact other (table.symm.trans table')

theorem Filed.mem_entries (filed : Filed columns catalog) (single : (Members.keys catalog).Nodup)
    {c : SensitiveColumn} : c ∈ catalog.entries ↔ c ∈ catalog.columnsOf c.table := by
  simp only [entries, List.mem_flatMap]
  constructor
  · rintro ⟨x, member, here⟩
    have known : Members.get? x.1 catalog = some x.2 := Members.get?_of_mem single member
    obtain ⟨pair, listed, rfl⟩ := List.mem_map.mp here
    rw [columnsOf, (filed.entry x.1 x.2 known pair listed).1, known]
    exact here
  · intro here
    unfold columnsOf at here
    cases known : Members.get? c.table catalog with
    | none =>
      rw [known] at here
      cases here
    | some entries =>
      rw [known] at here
      exact ⟨(c.table, entries), Members.mem_of_get? known, here⟩

end Catalog

namespace Config

/-- The catalog of an accepted configuration holds the entries that are listed, each of them
once. -/
theorem Accepted.entries_perm {config : Config} (accepted : config.Accepted) :
    config.catalog.entries.Perm (config.columns.map SensitiveColumn.normalized) := by
  have filed := Catalog.filed_ofColumns config.columns
  have single := Catalog.single_ofColumns config.columns
  refine (List.perm_ext_iff_of_nodup (filed.nodup_entries single)
    accepted.nodup_normalized).mpr fun c => ?_
  rw [filed.mem_entries single]
  refine mem_columnsOf_catalog.trans ?_
  rw [List.mem_map]
  constructor
  · rintro ⟨column, ⟨before, after, split, -⟩, rfl⟩
    exact ⟨column, by simp [split], rfl⟩
  · rintro ⟨column, listed, rfl⟩
    exact accepted.entry listed

/-- No relation of the statement stands for another configured table. -/
structure Only (config : Config) (t : Statement) (table : String) : Prop where
  named : ∃ name ∈ t.relations, config.StandsFor name table
  others : ∀ name ∈ t.relations, ∀ key, config.StandsFor name key → key = table

theorem Only.tables {config : Config} {t : Statement} {table : String}
    (only : config.Only t table) :
    (ActiveColumns.resolve t config.catalog).tables = [table] := by
  have resolution := ActiveColumns.resolution_resolve config t
  refine List.perm_singleton.mp ((List.perm_ext_iff_of_nodup resolution.single
    (List.nodup_singleton table)).mpr fun key => ?_)
  rw [resolution.tables, List.mem_singleton]
  constructor
  · rintro ⟨name, member, stands⟩
    exact only.others name member key stands
  · rintro rfl
    exact only.named

end Config

/-- What an entry brings about: its source column finds its target and index columns, and they
alone are derived. -/
structure Works (column : SensitiveColumn) (active : ActiveColumns) : Prop where
  found : ∀ ident : Ident,
    Text.equalIgnoringCase ident.text (normalizeIdentifier column.source) = true →
      ∃ c, active.get? ident = some c ∧ Means column.target c.target ∧ Means column.index c.index
  source : ∀ ident : Ident,
    Text.equalIgnoringCase ident.text (normalizeIdentifier column.source) = true →
      active.isDerived ident = false
  derived : ∀ (ident : Ident) (name : String),
    Means column.target name ∨ Means column.index name →
      Text.equalIgnoringCase ident.text name = true → active.isDerived ident = true

/-- An identifier that matches the source column of an entry is looked up under its name. -/
theorem SensitiveColumn.normalized_eq_source {column : SensitiveColumn} {ident : Ident}
    (same : Text.equalIgnoringCase ident.text (normalizeIdentifier column.source) = true) :
    ident.normalized = column.normalized.source := by
  rw [Text.equalIgnoringCase, beq_iff_eq, normalizeIdentifier, Text.asciiLower_asciiLower] at same
  exact same

namespace Config.Accepted

variable {config : Config} (accepted : config.Accepted) {column : SensitiveColumn} {t : Statement}
  {ident : Ident}

include accepted

theorem get?_source (listed : column ∈ config.columns)
    (only : config.Only t column.normalized.table)
    (named : ident.normalized = column.normalized.source) :
    (ActiveColumns.resolve t config.catalog).get? ident = some column.normalized := by
  have candidates := ActiveColumns.candidates_catalog t config ident
  have found := (config.filed?_catalog _ _ _).mpr (accepted.entry listed)
  rw [only.tables, named] at candidates
  rw [ActiveColumns.get?, candidates]
  simp only [List.filterMap_cons, found, List.head?_cons]

theorem isDerived_source (listed : column ∈ config.columns)
    (only : config.Only t column.normalized.table)
    (named : ident.normalized = column.normalized.source) :
    (ActiveColumns.resolve t config.catalog).isDerived ident = false := by
  refine Bool.eq_false_iff.mpr fun derived => ?_
  obtain ⟨c, active, derives⟩ := List.any_eq_true.mp derived
  obtain ⟨table, mentioned, other, ⟨before, after, split, ⟨here, -⟩, -⟩, rfl⟩ :=
    ActiveColumns.mem_resolve_columns.mp active
  rw [only.tables, List.mem_singleton] at mentioned
  have listed' : other ∈ config.columns := by simp [split]
  obtain ⟨target, index⟩ := accepted.sources column listed other listed' (here.trans mentioned)
  rw [named, SensitiveColumn.derives_normalized, Bool.or_eq_true, beq_iff_eq, beq_iff_eq] at derives
  exact derives.elim target index

theorem isDerived_derived (listed : column ∈ config.columns)
    (only : config.Only t column.normalized.table) {name : String}
    (means : Means column.target name ∨ Means column.index name)
    (same : Text.equalIgnoringCase ident.text name = true) :
    (ActiveColumns.resolve t config.catalog).isDerived ident = true := by
  have active : column.normalized ∈ (ActiveColumns.resolve t config.catalog).columns := by
    refine ActiveColumns.mem_resolve_columns.mpr
      ⟨column.normalized.table, ?_, accepted.entry listed⟩
    rw [only.tables]
    exact List.mem_singleton_self _
  refine List.any_eq_true.mpr ⟨column.normalized, active, ?_⟩
  rw [SensitiveColumn.derives_normalized, Bool.or_eq_true, beq_iff_eq, beq_iff_eq]
  exact means.imp (fun target => ((target.readAlike.looked ident).mp same).symm)
    fun index => ((index.readAlike.looked ident).mp same).symm

theorem works (listed : column ∈ config.columns) (only : config.Only t column.normalized.table) :
    Works column (.resolve t config.catalog) where
  found ident same := by
    have found := accepted.get?_source listed only (SensitiveColumn.normalized_eq_source same)
    refine ⟨column.normalized, found, ?_, ?_⟩
    · rw [SensitiveColumn.normalized_target]
      exact means_stripQuotes column.target
    · rw [SensitiveColumn.normalized_index]
      exact means_stripQuotes column.index
  source ident same :=
    accepted.isDerived_source listed only (SensitiveColumn.normalized_eq_source same)
  derived ident name means same := accepted.isDerived_derived listed only means same

end Config.Accepted

/-- No entry is lost or disabled: the catalog holds as many as are listed, each works wherever its
table is the only one that is configured, and all that reads a name takes it for the same one. -/
structure Config.Preserved (config : Config) : Prop where
  size : config.catalog.entries.length = config.columns.length
  works : ∀ column ∈ config.columns, ∀ t : Statement, config.Only t column.normalized.table →
    Works column (.resolve t config.catalog)
  readAlike : ∀ text name, Means text name → ReadAlike text name

theorem accepted_preserved (config : Config) (accepted : config.validateColumns = .ok ()) :
    config.Preserved := by
  have rules := config.validateColumns_eq_ok.mp accepted
  have size := rules.entries_perm.length_eq
  rw [List.length_map] at size
  exact ⟨size, fun column listed t only => rules.works listed only, fun _ _ => Means.readAlike⟩

namespace Sample

/-- Names with blanks, quotes and capitals. -/
def schemaConfig : Config :=
  { config with columns := [⟨"`Accounts`", " [SSN] ", "`Acc_Enc`", "acc_idx"⟩,
    ⟨"app.users", "ssn", "ssn_enc", "ssn_idx"⟩] }

/-- `SELECT Ssn FROM APP.Accounts`. -/
def accountsStatement : Statement :=
  .query ⟨false, [], .select ⟨.standard, [], [⟨.column [] (.bare "Ssn"), none⟩],
    [⟨.table [.bare "APP", .bare "Accounts"] false [] none, []⟩], none, []⟩, []⟩

theorem only_accounts : schemaConfig.Only accountsStatement "accounts" := by
  have stands : schemaConfig.catalog.tableOf? [.bare "APP", .bare "Accounts"] =
      some "accounts" := by decide +kernel
  refine ⟨⟨_, List.mem_singleton_self _, Config.tableOf?_eq_some.mp stands⟩, ?_⟩
  intro name member key stands'
  obtain rfl := List.mem_singleton.mp member
  exact stands'.unique (Config.tableOf?_eq_some.mp stands)

end Sample

open Sample in
theorem accepted_preserved_quoted : schemaConfig.validateColumns = .ok () ∧
    schemaConfig.Preserved ∧
    Works ⟨"`Accounts`", " [SSN] ", "`Acc_Enc`", "acc_idx"⟩
      (.resolve accountsStatement schemaConfig.catalog) := by
  have accepted : schemaConfig.validateColumns = .ok () := by decide +kernel
  have preserved := accepted_preserved schemaConfig accepted
  have table : (SensitiveColumn.mk "`Accounts`" " [SSN] " "`Acc_Enc`" "acc_idx").normalized.table =
      "accounts" := by decide +kernel
  exact ⟨accepted, preserved,
    preserved.works _ List.mem_cons_self _ (table ▸ only_accounts)⟩

open Sample in
example : (ActiveColumns.resolve accountsStatement schemaConfig.catalog).get? (.bare "sSN") =
    some ⟨"accounts", "ssn", "Acc_Enc", "acc_idx"⟩ := by
  decide +kernel

end SealedColumns
