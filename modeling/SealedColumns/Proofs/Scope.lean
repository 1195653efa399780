import SealedColumns.Proofs.Target

/-!
Which entries the selects of a query are read by. Where the keys of the FROM clause tell the tables
of the statement apart, a projection is read only by entries of tables that its own FROM clause
stands for; a filter too, unless none of them has an entry for the name: then the first table in the
statement that has one decides.
-/
namespace SealedColumns

open Sql

section Reading

variable (stays : Reference → Prop) (stands : Reference → SensitiveColumn → Prop)

/-- An item is left as it is, as far as columns may stay, or it is a column that is read from the
target column of an entry that it stands for, under the output name that it had. -/
inductive ItemRead : SelectItem Nat → SelectItem Nat → Prop where
  | kept {item : SelectItem Nat} :
      (∀ qualifier name, item.expr = .column qualifier name → stays ⟨qualifier, name⟩) →
        ItemRead item item
  | renamed {qualifier : List Ident} {name : Ident} {c : SensitiveColumn} {label : Option Ident} :
      stands ⟨qualifier, name⟩ c →
        ItemRead ⟨.column qualifier name, label⟩
          ⟨.column qualifier { name with text := c.target }, some (label.getD name)⟩

variable {stays stands} in
theorem ItemRead.eq_of_none {item item' : SelectItem Nat} (read : ItemRead stays stands item item')
    (none : ∀ qualifier name, item.expr = .column qualifier name →
      ∀ c, ¬ stands ⟨qualifier, name⟩ c) : item' = item := by
  cases read with
  | kept _ => rfl
  | renamed stand => exact absurd stand (none _ _ rfl _)

variable (handler : Handler)

end Reading

section Entries

variable (catalog : Catalog) (t : Statement) (sources : List (FromItem Nat))

/-- A base table of the FROM clause stands for this configured table. -/
def Resolves (table : String) : Prop :=
  ∃ name ∈ baseTables sources, catalog.tableOf? name = some table

/-- No base table of the FROM clause has a key of another table in the statement. -/
def Unambiguous : Prop :=
  ∀ name ∈ baseTables sources, ∀ other ∈ t.referencedTables, ∀ key ∈ catalog.tableOf? other,
    key ∈ tableKeys name → catalog.tableOf? name = some key

/-- An entry for the name, of a table in the statement. -/
def Mentioned (r : Reference) (c : SensitiveColumn) : Prop :=
  ∃ table ∈ t.referencedTables, OwnEntry catalog table r.name c

/-- An entry of a table that the FROM clause stands for. -/
structure ScopeEntry (r : Reference) (c : SensitiveColumn) : Prop where
  entry : Mentioned catalog t r c
  resolved : Resolves catalog sources c.table

/-- What the columns of a projection may be read by. -/
structure ProjectionEntry (r : Reference) (c : SensitiveColumn) : Prop where
  entry : Mentioned catalog t r c
  scope : Unambiguous catalog t sources → ScopeEntry catalog t sources r c

/-- A column stays in a projection if nothing is overwritten, if it has the name of a derived
column, or if no table of the FROM clause has an entry for it. -/
def Stays (overwrite : Bool) (r : Reference) : Prop :=
  overwrite = true → (ActiveColumns.resolve t catalog).isDerived r.name = false →
    Unambiguous catalog t sources → ∀ c, ¬ ScopeEntry catalog t sources r c

/-- What the columns of a filter may be read by. Only where no table of the FROM clause has an entry
for the name, the first table that has one decides. -/
structure FilterEntry (r : Reference) (c : SensitiveColumn) : Prop where
  entry : Mentioned catalog t r c
  scope : Unambiguous catalog t sources → ScopeEntry catalog t sources r c ∨
    (∀ c', ¬ ScopeEntry catalog t sources r c') ∧
      catalog.First t.referencedTables r.name.normalized c

end Entries

namespace Sealing

variable {config : Config} {t : Statement} {sources : List (FromItem Nat)} {r : Reference}
  {c : SensitiveColumn}

theorem mentioned_iff : Mentioned config.catalog t r c ↔
    c ∈ (ActiveColumns.resolve t config.catalog).columns ∧ c.source = r.name.normalized := by
  constructor
  · rintro ⟨table, mentioned, entry, source⟩
    exact ⟨ActiveColumns.mem_resolve.mpr ⟨table, mentioned, entry⟩, source⟩
  · rintro ⟨member, source⟩
    obtain ⟨table, mentioned, entry⟩ := ActiveColumns.mem_resolve.mp member
    exact ⟨table, mentioned, entry, source⟩

/-- Where the keys tell the tables apart, the scope has the tables that the FROM clause stands
for. -/
theorem mem_scopeOf (unambiguous : Unambiguous config.catalog t sources)
    (entry : Mentioned config.catalog t r c) :
    c.table ∈ scopeOf sources ↔ Resolves config.catalog sources c.table := by
  constructor
  · intro inside
    obtain ⟨table, mentioned, member, -⟩ := entry
    obtain ⟨name, base, key⟩ := List.mem_flatMap.mp inside
    refine ⟨name, base, unambiguous name base table mentioned c.table ?_ key⟩
    exact (Catalog.filed_ofColumns config.columns).tableOf?_of_mem member
  · rintro ⟨name, base, known⟩
    exact List.mem_flatMap.mpr ⟨name, base, List.mem_of_find?_eq_some known⟩

theorem Stands.filterEntry {g : Sealing} (active : g.active = .resolve t config.catalog)
    (stands : g.Stands (scopeOf sources) r c) : FilterEntry config.catalog t sources r c := by
  have found := stands.2
  rw [active] at found
  have known : Mentioned config.catalog t r c := by
    rcases ActiveColumns.getIn?_eq_some found with ⟨member, source, -⟩ | ⟨-, found⟩
    · exact mentioned_iff.mpr ⟨member, source⟩
    · exact mentioned_iff.mpr (ActiveColumns.mem_of_get? found)
  refine ⟨known, fun unambiguous => ?_⟩
  rcases ActiveColumns.getIn?_eq_some found with ⟨-, -, inside⟩ | ⟨outside, found⟩
  · exact .inl ⟨known, (mem_scopeOf unambiguous known).mp inside⟩
  · refine .inr ⟨fun c' scope => ?_, ActiveColumns.first_of_get? found⟩
    obtain ⟨member, source⟩ := mentioned_iff.mp scope.entry
    exact outside c' member source ((mem_scopeOf unambiguous scope.entry).mpr scope.resolved)

/-- A projection is renamed where its FROM clause has an entry, and only by such an entry. -/
theorem ItemSealed.read {g : Sealing} (active : g.active = .resolve t config.catalog)
    {item item' : SelectItem Nat} (run : g.ItemSealed (scopeOf sources) item item') :
    ItemRead (Stays config.catalog t sources g.options.overwrite)
      (ProjectionEntry config.catalog t sources) item item' := by
  cases run with
  | kept unprojected =>
    refine .kept fun qualifier name same overwrite underived unambiguous c scope => ?_
    obtain ⟨member, source⟩ := mentioned_iff.mp scope.entry
    obtain ⟨c', found, inside⟩ := ActiveColumns.exists_getIn? member source
      ((mem_scopeOf unambiguous scope.entry).mpr scope.resolved)
    have sensitive : g.sensitive? (scopeOf sources) item.expr = some c' := by
      rw [← active] at found underived
      exact sensitive?_eq_some.mpr ⟨qualifier, name, same, by simp [underived], found⟩
    have none := unprojected overwrite
    simp [projected?, sensitive, inside] at none
  | @renamed c label projected labelled =>
    obtain ⟨sensitive, contained⟩ := Option.filter_eq_some_iff.mp projected
    have inside : c.table ∈ scopeOf sources := List.contains_iff_mem.mp contained
    obtain ⟨qualifier, name, same, stands⟩ := sensitive?_eq_some.mp sensitive
    obtain ⟨expr, itemLabel⟩ := item
    cases same
    have output : label = itemLabel.getD name := by
      cases itemLabel <;> exact (Option.some.inj labelled).symm
    rw [output]
    have filtered : FilterEntry config.catalog t sources ⟨qualifier, name⟩ c :=
      stands.filterEntry active
    have known := filtered.entry
    exact .renamed ⟨known, fun unambiguous =>
      ⟨known, (mem_scopeOf unambiguous known).mp inside⟩⟩

end Sealing

namespace Sql

variable {ν : Type}

mutual

/-- The qualifiers that a FROM clause offers, with the base tables that they denote. -/
def TableFactor.labels : TableFactor ν → List (Ident × Option Name)
  | .table name _ _ label =>
    ((label.map TableAlias.name).or name.getLast?).toList.map (·, some name)
  | .derived _ _ label => (label.map TableAlias.name).toList.map (·, none)
  | .nested item _ => item.labels

def joinLabels : List (Join ν) → List (Ident × Option Name)
  | [] => []
  | ⟨_, _, relation, _, _⟩ :: joins => relation.labels ++ joinLabels joins

def FromItem.labels : FromItem ν → List (Ident × Option Name)
  | ⟨relation, joins⟩ => relation.labels ++ joinLabels joins

end

end Sql

namespace Sample

def readConfig : Config :=
  { config with columns := [⟨"users", "ssn", "ssn_enc", "ssn_idx"⟩] }

/-- A select of one item, possibly joined with a derived table. -/
def select {ν : Type} (item : SelectItem ν) (source : FromItem ν) (filter : Option (Expr ν)) :
    Query ν :=
  ⟨false, [], .select ⟨.standard, [], [item], [source], filter, []⟩, []⟩

def users {ν : Type} (joins : List (Join ν)) : FromItem ν :=
  ⟨.table [.bare "users"] false [] none, joins⟩

/-- `SELECT ssn FROM users`, with the column to read it from. -/
def ownSelect {ν : Type} (column : String) (label : Option Ident) : Query ν :=
  select ⟨.column [] (.bare column), label⟩ (users []) none

end Sample

end SealedColumns
