import Mathlib.Data.List.DropRight
import Mathlib.Data.List.Pairwise
import SealedColumns.Proofs.Accepted
import SealedColumns.Proofs.Listed

/-!
Names that an accepted configuration uses twice. The check of a configuration tells the names of one
entry apart and sources from derived names, but not the derived names of two entries; where those
are apart too, no column is written twice by a statement that does not list one twice.
-/
namespace SealedColumns

open Sql

namespace SensitiveColumn

def derived (c : SensitiveColumn) : List String := [c.target, c.index]

theorem comparable_target (c : SensitiveColumn) :
    (Config.comparable c).target = Text.asciiLower c.normalized.target := by
  simp only [normalized_target, Config.comparable, normalizeIdentifier]

theorem comparable_index (c : SensitiveColumn) :
    (Config.comparable c).index = Text.asciiLower c.normalized.index := by
  simp only [normalized_index, Config.comparable, normalizeIdentifier]

end SensitiveColumn

namespace Text

theorem isBlankText_of_trim {s : String} (empty : trim s = "") : isBlankText s = true := by
  have none : trimChars s.toList = [] := by
    have chars := congrArg String.toList empty
    rwa [trim, String.toList_ofList] at chars
  rw [trimChars, List.reverse_eq_nil_iff, List.dropWhile_eq_nil_iff] at none
  have blank : ∀ c ∈ s.toList.dropWhile isBlank, isBlank c = true := fun c member =>
    none c (List.mem_reverse.mpr member)
  have front : s.toList.dropWhile isBlank = [] := by
    rw [← List.dropWhile_idempotent, List.dropWhile_eq_nil_iff]
    exact blank
  exact List.all_eq_true.mpr (List.dropWhile_eq_nil_iff.mp front)

theorem asciiLower_eq_empty {s : String} : asciiLower s = "" ↔ s = "" := by
  rw [asciiLower, String.ofList_eq_empty_iff, List.map_eq_nil_iff, String.toList_eq_nil_iff]

end Text

namespace Config

/-- The entries of a table, under the names that are compared. -/
def entriesFor (config : Config) (table : String) : List SensitiveColumn :=
  (config.columns.map comparable).filter fun c => c.table == table

/-- All names of columns that the entries of a table use. -/
def columnNames (config : Config) (table : String) : List String :=
  (config.entriesFor table).flatMap SensitiveColumn.columns

/-- No two entries of a table derive a column of the same name. -/
def DerivesApart (config : Config) (table : String) : Prop :=
  (config.entriesFor table).Pairwise fun one two => one.derived.Disjoint two.derived

theorem mem_entriesFor {config : Config} {table : String} {c : SensitiveColumn} :
    c ∈ config.entriesFor table ↔
      ∃ column ∈ config.columns, comparable column = c ∧ c.table = table := by
  simp only [entriesFor, List.mem_filter, List.mem_map, beq_iff_eq]
  constructor
  · rintro ⟨⟨column, listed, same⟩, here⟩
    exact ⟨column, listed, same, here⟩
  · rintro ⟨column, listed, same, here⟩
    exact ⟨⟨column, listed, same⟩, here⟩

namespace Accepted

variable {config : Config} (accepted : config.Accepted)

include accepted

/-- A name is empty only if it is written as a pair of quotes with nothing between. -/
theorem empty_iff {column : SensitiveColumn} (listed : column ∈ config.columns) {text : String}
    (member : text ∈ column.names) :
    normalizeIdentifier text = "" ↔ ∃ pair ∈ quotePairs, Text.trim text = quoted pair "" := by
  have filled := (accepted.entries column listed).filled text member
  constructor
  · intro empty
    have means := means_stripQuotes text
    rw [normalizeIdentifier] at empty
    generalize stripQuotes text = name at means empty
    obtain rfl := Text.asciiLower_eq_empty.mp empty
    generalize same : "" = name at means
    cases means with
    | quoted known written => exact ⟨_, known, same ▸ written⟩
    | plain _ =>
      rw [Text.isBlankText_of_trim same.symm] at filled
      cases filled
  · rintro ⟨pair, known, written⟩
    exact (Means.quoted known written).readAlike.compared

/-- The sources are told apart from each other and from all derived names. -/
theorem sources_apart (table : String) :
    (config.entriesFor table).Pairwise fun one two => one.source ∉ two.columns ∧
      two.source ∉ one.columns := by
  have single : ((config.columns.map comparable).map fun c => (c.table, c.source)).Nodup := by
    rw [List.map_map]
    exact accepted.single
  have apart : ∀ c ∈ config.entriesFor table, ∀ other ∈ config.entriesFor table,
      c.source ≠ other.source → c.source ∉ other.columns := by
    intro c member other member' sources here
    obtain ⟨column, listed, rfl, inside⟩ := mem_entriesFor.mp member
    obtain ⟨column', listed', rfl, inside'⟩ := mem_entriesFor.mp member'
    obtain ⟨target, index⟩ := accepted.sources column listed column' listed'
      (inside'.trans inside.symm)
    rcases List.mem_cons.mp here with same | derived
    · exact sources same
    · exact (List.mem_pair.mp derived).elim (fun same => target same.symm)
        fun same => index same.symm
  have single := (List.pairwise_map.mp single).filter fun c => c.table == table
  refine single.imp_of_mem ?_
  intro one two member member' places
  have inside := (mem_entriesFor.mp member).elim fun _ known => known.2.2
  have inside' := (mem_entriesFor.mp member').elim fun _ known => known.2.2
  have sources : one.source ≠ two.source := fun same =>
    places (Prod.ext (inside.trans inside'.symm) same)
  exact ⟨apart one member two member' sources, apart two member' one member sources.symm⟩

theorem nodup_columnNames (table : String) :
    (config.columnNames table).Nodup ↔ config.DerivesApart table := by
  rw [columnNames, List.nodup_flatMap]
  constructor
  · rintro ⟨-, disjoint⟩
    exact disjoint.imp fun apart name here there =>
      apart (List.mem_cons_of_mem _ here) (List.mem_cons_of_mem _ there)
  · intro apart
    refine ⟨fun c member => ?_, ?_⟩
    · obtain ⟨column, listed, rfl, -⟩ := mem_entriesFor.mp member
      exact (accepted.entries column listed).apart
    · refine List.Pairwise.imp₂ ?_ (accepted.sources_apart table) apart
      rintro one two ⟨source, source'⟩ apart name here there
      rcases List.mem_cons.mp here with rfl | here
      · exact source there
      · rcases List.mem_cons.mp there with rfl | there
        · exact source' (List.mem_cons_of_mem _ here)
        · exact apart here there

end Accepted

end Config

/-- What makes a statement name a column twice: two listed columns whose entries derive the same
name, or a tuple that names a derived column. -/
inductive Clash (active : ActiveColumns) (targets : List Target) : Prop where
  | shared {one two : Ident} {c c' : SensitiveColumn} {name : String} :
      Matched (fun ident c => active.get? ident = some c) targets one c →
      Matched (fun ident c => active.get? ident = some c) targets two c' →
      one.normalized ≠ two.normalized → c.derives name = true → c'.derives name = true →
        Clash active targets
  | tuple {names : List Name} {ident : Ident} : .tuple names ∈ targets →
      ident ∈ (Target.tuple names).columns → active.isDerived ident = true → Clash active targets

namespace Config.Accepted

variable {config : Config} (accepted : config.Accepted) {t : Statement}

include accepted

theorem derived_apart {c : SensitiveColumn}
    (member : c ∈ (ActiveColumns.resolve t config.catalog).columns) :
    Text.asciiLower c.target ≠ Text.asciiLower c.index := by
  obtain ⟨_, _, column, ⟨_, _, split, -⟩, rfl⟩ := ActiveColumns.mem_resolve_columns.mp member
  have apart := (accepted.entries column (by simp [split])).apart
  have pair := (List.nodup_cons.mp apart).2
  intro same
  refine (List.nodup_cons.mp pair).1 (List.mem_singleton.mpr ?_)
  rw [SensitiveColumn.comparable_target, SensitiveColumn.comparable_index]
  exact same

theorem expandsApart {targets : List Target}
    (underived : Sealing.Underived (.resolve t config.catalog) targets)
    (clear : ¬ Clash (.resolve t config.catalog) targets) :
    ExpandsApart (fun ident c => (ActiveColumns.resolve t config.catalog).get? ident = some c)
      targets := by
  constructor
  · intro ident c matched
    exact accepted.derived_apart (ActiveColumns.mem_of_get? matched.stands).1
  · intro ident c matched name member
    obtain ⟨target, listed, other, named, rfl⟩ := mem_targetNames.mp member
    have plain : (ActiveColumns.resolve t config.catalog).isDerived other = false := by
      cases target with
      | column parts => exact underived _ listed other (Option.mem_toList.mp named)
      | tuple names =>
        exact Bool.eq_false_iff.mpr fun derived => clear (.tuple listed named derived)
    exact Bool.eq_false_iff.mpr
      (List.any_eq_false.mp plain c (ActiveColumns.mem_of_get? matched.stands).1)
  · intro one two c c' matched matched' different name derives
    exact Bool.eq_false_iff.mpr fun derives' =>
      clear (.shared matched matched' different derives derives')

end Config.Accepted

/-- Where no other table is configured, the names that a table's entries derive decide. -/
theorem Config.DerivesApart.clash_tuple {config : Config} {t : Statement} {table : String}
    (apart : config.DerivesApart table) (only : config.Only t table) {targets : List Target}
    (clash : Clash (.resolve t config.catalog) targets) :
    ∃ names, .tuple names ∈ targets ∧ ∃ ident ∈ (Target.tuple names).columns,
      (ActiveColumns.resolve t config.catalog).isDerived ident = true := by
  have entry : ∀ {ident : Ident} {c : SensitiveColumn} {name : String},
      Matched (fun ident c => (ActiveColumns.resolve t config.catalog).get? ident = some c) targets
        ident c → c.derives name = true → ∃ entry ∈ config.entriesFor table,
          entry.source = ident.normalized ∧ name ∈ entry.derived := by
    intro ident c name matched derives
    obtain ⟨member, source⟩ := ActiveColumns.mem_of_get? matched.stands
    obtain ⟨key, mentioned, column, ⟨_, _, split, ⟨here, -⟩, -⟩, rfl⟩ :=
      ActiveColumns.mem_resolve_columns.mp member
    rw [only.tables, List.mem_singleton] at mentioned
    rw [SensitiveColumn.derives_normalized, Bool.or_eq_true, beq_iff_eq, beq_iff_eq] at derives
    refine ⟨comparable column, mem_entriesFor.mpr ⟨column, by simp [split], rfl,
      here.trans mentioned⟩, source, ?_⟩
    exact List.mem_pair.mpr (derives.imp Eq.symm Eq.symm)
  cases clash with
  | shared matched matched' different derives derives' =>
    obtain ⟨one, member, source, here⟩ := entry matched derives
    obtain ⟨two, member', source', there⟩ := entry matched' derives'
    have symm : Std.Symm fun one two : SensitiveColumn => one.derived.Disjoint two.derived :=
      ⟨fun _ _ disjoint _ here there => disjoint there here⟩
    refine absurd there (apart.forall member member' ?_ here)
    rintro rfl
    exact different (source.symm.trans source')
  | tuple listed named derived => exact ⟨_, listed, _, named, derived⟩

/-- What the check of a configuration rules out: empty names, unless they are written as an empty
pair of quotes, and all collisions of names but those of derived names of two entries; so a column
is written twice only by way of such a collision. -/
structure Config.RulesOut (config : Config) : Prop where
  empty : ∀ column ∈ config.columns, ∀ text ∈ column.names,
    normalizeIdentifier text = "" ↔ ∃ pair ∈ quotePairs, Text.trim text = quoted pair ""
  names : ∀ table, (config.columnNames table).Nodup ↔ config.DerivesApart table
  written : ∀ (handler : Handler) (options : SealOptions) (resultMaps : List ResultMap)
    (bound : BoundStatement) (t : Statement) (supply : Supply) (sealed : Sealed),
    (sealBound (.resolve t config.catalog) handler options resultMaps bound t supply).1 =
      .ok sealed →
    ∃ tree, Sealing.Emits ⟨.resolve t config.catalog, handler, options, resultMaps,
        bound.mappings⟩ bound supply t tree sealed ∧
      ((targetNames t.listed).Nodup → ¬ Clash (.resolve t config.catalog) t.listed →
        (targetNames tree.listed).Nodup)
  own : ∀ (t : Statement) (table : String), config.Only t table → config.DerivesApart table →
    Clash (.resolve t config.catalog) t.listed →
    ∃ names, .tuple names ∈ t.listed ∧ ∃ ident ∈ (Target.tuple names).columns,
      (ActiveColumns.resolve t config.catalog).isDerived ident = true

theorem accepted_rulesOut (config : Config) (accepted : config.validateColumns = .ok ()) :
    config.RulesOut := by
  have rules := config.validateColumns_eq_ok.mp accepted
  refine ⟨fun column listed text member => rules.empty_iff listed member,
    rules.nodup_columnNames, ?_, fun t table only apart => apart.clash_tuple only⟩
  intro handler options resultMaps bound t supply sealed succeeded
  obtain ⟨tree, emits⟩ := exists_emits succeeded
  refine ⟨tree, emits, fun once clear => ?_⟩
  have list := emits.treeSealed.list
  rw [Statement.number, Statement.listed_walk] at list
  generalize tree.listed = listed at list ⊢
  cases list with
  | kept => exact once
  | expanded underived expanded =>
    exact expanded.nodup (rules.expandsApart underived clear) once

open Sample in
theorem accepted_rulesOut_insert : config.validateColumns = .ok () ∧ config.RulesOut ∧
    config.DerivesApart "users" ∧
    ∃ tree, Sealing.Emits sealing bound supply statement tree result ∧
      (targetNames tree.listed).Nodup := by
  have accepted : config.validateColumns = .ok () := rfl
  have rules := accepted_rulesOut config accepted
  have apart : config.DerivesApart "users" :=
    (rules.names "users").mp (by decide +kernel)
  have users : config.StandsFor [.bare "users"] "users" :=
    Config.tableOf?_eq_some.mp (by decide +kernel)
  have only : config.Only statement "users" := by
    refine ⟨⟨_, List.mem_cons_self, users⟩, fun name member key stands => ?_⟩
    have same : name = [.bare "users"] := by
      rcases List.mem_pair.mp member with rfl | rfl <;> rfl
    subst same
    exact stands.unique users
  obtain ⟨tree, emits, written⟩ := rules.written handler ⟨true, false⟩ [] bound statement supply
    result seals
  refine ⟨accepted, rules, apart, tree, emits, written (by decide +kernel) fun clash => ?_⟩
  obtain ⟨names, tuple, -⟩ := rules.own statement "users" only apart clash
  rcases List.mem_pair.mp tuple with same | same <;> cases same

namespace Sample

/-- Two entries of a table that share their target column. -/
def collidingConfig : Config :=
  { config with columns := [⟨"users", "ssn", "ssn_enc", "ssn_idx"⟩,
    ⟨"users", "tin", "ssn_enc", "tin_idx"⟩] }

/-- An index column that is written as a pair of quotes with nothing between. -/
def namelessConfig : Config := { config with columns := [⟨"users", "ssn", "ssn_enc", "[]"⟩] }

/-- An UPDATE of `users`. -/
def usersUpdate {ν : Type} (assignments : List (Assignment ν)) : Statement ν :=
  .update ⟨none, ⟨.table [.bare "users"] false [] none, []⟩, false, assignments, [], none, []⟩

def collidingStatement : Statement :=
  usersUpdate [⟨.column [.bare "ssn"], .value (.string "x")⟩,
    ⟨.column [.bare "tin"], .value (.string "y")⟩]

def collidingTree : Statement Nat :=
  usersUpdate [⟨.column [.bare "ssn_enc"], .value (.string "#x")⟩,
    ⟨.column [.bare "ssn_idx"], .value (.string "~x")⟩,
    ⟨.column [.bare "ssn_enc"], .value (.string "#y")⟩,
    ⟨.column [.bare "tin_idx"], .value (.string "~y")⟩]

def collidingBound : BoundStatement :=
  ⟨"UPDATE users SET ssn = 'x', tin = 'y'", [], .null, []⟩

def collidingResult : Sealed :=
  ⟨⟨"UPDATE users SET ssn_enc = '#x', ssn_idx = '~x', ssn_enc = '#y', tin_idx = '~y'", [], .null,
    []⟩, []⟩

end Sample

open Sample in
/-- Both configurations are accepted, and a statement that lists no column twice comes to write one
twice. -/
theorem accepted_names_collide : collidingConfig.validateColumns = .ok () ∧
    ¬ (collidingConfig.columnNames "users").Nodup ∧
    namelessConfig.validateColumns = .ok () ∧ "" ∈ namelessConfig.columnNames "users" ∧
    (sealBound (.resolve collidingStatement collidingConfig.catalog) handler ⟨true, false⟩ []
      collidingBound collidingStatement supply).1 = .ok collidingResult ∧
    Sealing.Emits ⟨.resolve collidingStatement collidingConfig.catalog, handler, ⟨true, false⟩, [],
      []⟩ collidingBound supply collidingStatement collidingTree collidingResult ∧
    (targetNames collidingStatement.listed).Nodup ∧
    ¬ (targetNames collidingTree.listed).Nodup := by
  refine ⟨by decide +kernel, by decide +kernel, by decide +kernel, by decide +kernel, ?_,
    ⟨rfl, Sealing.draftOf collidingBound supply, ?_, ?_⟩, by decide +kernel, by decide +kernel⟩
  · with_unfolding_all rfl
  · with_unfolding_all rfl
  · with_unfolding_all rfl

end SealedColumns
