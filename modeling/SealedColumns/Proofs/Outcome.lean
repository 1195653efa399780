import SealedColumns.Interceptor
import SealedColumns.Proofs.Emission

/-!
Preparing a statement is all or nothing: it comes back as it was, or sealed as a whole, with nothing
of the input lost; and which of the two is decided by the statement and the configuration.
-/
namespace SealedColumns

open Sql

namespace Text

theorem dropHead?_isSome (head cs : List Char) : (dropHead? head cs).isSome ↔ head <+: cs := by
  induction head generalizing cs with
  | nil => simp [dropHead?]
  | cons h head ih =>
    cases cs with
    | nil => simp [dropHead?]
    | cons c cs =>
      by_cases same : h = c
      · simp [dropHead?, same, ih]
      · simp [dropHead?, same]

theorem startsWith_iff (head s : String) : startsWith head s = true ↔ head.toList <+: s.toList :=
  dropHead?_isSome head.toList s.toList

end Text

theorem mem_distinct {α : Type} [BEq α] [LawfulBEq α] (a : α) (l : List α) :
    a ∈ distinct l ↔ a ∈ l := by
  induction l with
  | nil => exact Iff.rfl
  | cons b l ih =>
    by_cases same : a = b
    · simp [distinct, same]
    · simp [distinct, same, ih]

namespace Catalog

/-- No table is configured without a column. -/
def Inhabited (catalog : Catalog) : Prop :=
  ∀ table columns, Members.get? table catalog = some columns → columns ≠ []

theorem Inhabited.add {catalog : Catalog} (inhabited : catalog.Inhabited)
    (column : SensitiveColumn) : (catalog.add column).Inhabited := by
  intro table columns found
  simp only [Catalog.add, Members.get?_insert] at found
  split at found
  · rintro rfl
    have inserted := congrArg (Members.get? column.normalized.source) (Option.some.inj found)
    rw [Members.get?_insert, if_pos rfl] at inserted
    cases inserted
  · exact inhabited table columns found

theorem inhabited_ofColumns (columns : List SensitiveColumn) : (ofColumns columns).Inhabited := by
  have grown : ∀ (columns : List SensitiveColumn) (catalog : Catalog), catalog.Inhabited →
      (columns.foldl Catalog.add catalog).Inhabited := by
    intro columns
    induction columns with
    | nil => exact fun _ inhabited => inhabited
    | cons column columns ih => exact fun catalog inhabited => ih _ (inhabited.add column)
  exact grown columns [] (fun table columns found => by cases found)

theorem Inhabited.columnsOf {catalog : Catalog} (inhabited : catalog.Inhabited) {name : Name}
    {table : String} (found : catalog.tableOf? name = some table) :
    catalog.columnsOf table ≠ [] := by
  unfold Catalog.tableOf? at found
  have known := List.find?_some found
  obtain ⟨columns, here⟩ := Option.isSome_iff_exists.mp known
  have some := inhabited table columns here
  simp [Catalog.columnsOf, here, Members.values, some]

end Catalog

/-- A statement touches no sensitive column exactly if it names no configured table. -/
theorem ActiveColumns.isEmpty_resolve {catalog : Catalog} (inhabited : catalog.Inhabited)
    (t : Statement) :
    (resolve t catalog).isEmpty = false ↔
      ∃ name ∈ t.referencedTables, (catalog.tableOf? name).isSome := by
  have empty : (resolve t catalog).isEmpty = true ↔
      ∀ table ∈ t.referencedTables.filterMap catalog.tableOf?, catalog.columnsOf table = [] := by
    simp only [ActiveColumns.isEmpty, resolve, List.isEmpty_iff, List.flatMap_eq_nil_iff,
      mem_distinct]
  rw [← Bool.not_eq_true, empty]
  constructor
  · intro some
    simp only [List.mem_filterMap, not_forall] at some
    obtain ⟨table, ⟨name, referenced, found⟩, -⟩ := some
    exact ⟨name, referenced, by simp [found]⟩
  · rintro ⟨name, referenced, configured⟩ none
    obtain ⟨table, found⟩ := Option.isSome_iff_exists.mp configured
    exact inhabited.columnsOf found (none table (List.mem_filterMap.mpr ⟨name, referenced, found⟩))

theorem Sealing.act_object {g : Sealing} {a : Act} {d d' : Draft}
    (step : (g.act a).Gives d () d') : d'.parameters.object = d.parameters.object := by
  cases a with
  | compare n =>
    obtain ⟨_, _, _, _, outcome⟩ := compare_cases step
    obtain ⟨_, rfl⟩ | ⟨_, _, _, _, _, ⟨_, same⟩ | ⟨_, _, _, _, after⟩⟩ := outcome
    · rfl
    · rw [same]
    · rw [after]
  | write n =>
    obtain ⟨_, _, _, _, _, _, _, _, _, _, _, _, after⟩ := write_cases step
    rw [after]

theorem Sealing.Trace.object {g : Sealing} {acts : List Act} {d d' : Draft}
    (run : g.Trace acts d d') : d'.parameters.object = d.parameters.object := by
  induction run with
  | done => rfl
  | quiet parameters _ _ ih => rw [ih, parameters]
  | act step _ ih => rw [ih, act_object step]

namespace Interceptor

/-- An interceptor as it is built from a configuration that was accepted. -/
inductive Built : Interceptor → Prop where
  | ofConfig {c : Config} {r : Registry} {i : Interceptor} :
      Interceptor.ofConfig c r = .ok i → Built i
  | ofHandler {c : Config} {handler : Handler} {i : Interceptor} :
      Interceptor.ofHandler c handler = .ok i → Built i

theorem assemble_catalog {c : Config} {handler : Option Handler} {i : Interceptor}
    (assembled : assemble c handler = .ok i) : i.catalog = c.catalog := by
  unfold assemble at assembled
  cases dialect : Sql.Dialect.ofName c.dialect with
  | error fault =>
    rw [dialect] at assembled
    cases assembled
  | ok d =>
    rw [dialect] at assembled
    cases assembled
    rfl

theorem Built.inhabited {i : Interceptor} (built : i.Built) : i.catalog.Inhabited := by
  have made : ∃ c : Config, i.catalog = c.catalog := by
    cases built with
    | @ofConfig c r _ accepted =>
      unfold Interceptor.ofConfig at accepted
      cases valid : c.validate with
      | error fault =>
        rw [valid] at accepted
        cases accepted
      | ok =>
        cases handler : handlerOf c r with
        | error fault =>
          rw [valid, handler] at accepted
          cases accepted
        | ok handler? =>
          rw [valid, handler] at accepted
          exact ⟨c, assemble_catalog accepted⟩
    | @ofHandler c handler _ accepted =>
      unfold Interceptor.ofHandler at accepted
      cases valid : c.validateColumns with
      | error fault =>
        rw [valid] at accepted
        cases accepted
      | ok =>
        rw [valid] at accepted
        exact ⟨c, assemble_catalog accepted⟩
  obtain ⟨c, same⟩ := made
  rw [same]
  exact Catalog.inhabited_ofColumns c.columns

/-- The statement comes back as it was, and nothing is decrypted for it. -/
structure Passed (statement : MappedStatement) (bound : BoundStatement) (p : Prepared) : Prop where
  isSealed : p.isSealed = false
  bound : p.bound = bound
  invocation : p.invocation = ⟨statement.id, []⟩

/-- What sealing needs besides an interceptor that is enabled: an id with one of the beginnings, a
kind that is known, a text that is one statement, a configured table in it, and a pass that
succeeds. -/
structure Seals (i : Interceptor) (handler : Handler) (statement : MappedStatement)
    (bound : BoundStatement) (supply : Supply) (t : Statement) (sealed : Sealed) : Prop where
  id : ∃ head ∈ i.idHeads, head.toList <+: statement.id.toList
  kind : statement.kind ≠ .unknown
  parsed : Statement.parse i.dialect bound.sql = .ok t
  configured : ∃ name ∈ t.referencedTables, (i.catalog.tableOf? name).isSome
  succeeded : (sealBound (.resolve t i.catalog) handler i.options statement.resultMaps bound t
    supply).1 = .ok sealed

/-- The statement comes back sealed: with the text of the tree that the pass over its own tree
emits, in which there is a placeholder for each mapping; with the parameters of the input, and new
ones that are bound once each; and with the aliases of the pass for what is read. -/
structure SealedWhole (i : Interceptor) (handler : Handler) (statement : MappedStatement)
    (bound : BoundStatement) (supply : Supply) (t : Statement) (sealed : Sealed) (p : Prepared) :
    Prop where
  isSealed : p.isSealed = true
  given : p.bound = sealed.bound
  invocation : p.invocation = ⟨statement.id, sealed.aliases⟩
  tree : ∃ tree : Statement Nat,
    Sealing.Emits ⟨.resolve t i.catalog, handler, i.options, statement.resultMaps, bound.mappings⟩
      bound supply t tree sealed ∧
    p.bound.sql = tree.restore.render ∧ tree.restore.countAnonymous = p.bound.mappings.length
  object : p.bound.object = bound.object
  kept : supply.Fresh bound → ∀ key value, bound.additional.get? key = some value →
    p.bound.additional.get? key = some value
  new : supply.Fresh bound → ∀ key, bound.additional.get? key = none →
    (p.bound.additional.get? key).isSome →
      (∃ n, supply.named ≤ n ∧ key = supply.name n) ∧
        (p.bound.mappings.map ParameterMapping.property).count key = 1

theorem Seals.whole {i : Interceptor} {handler : Handler} {statement : MappedStatement}
    {bound : BoundStatement} {supply : Supply} {t : Statement} {sealed : Sealed}
    (seals : Seals i handler statement bound supply t sealed) :
    SealedWhole i handler statement bound supply t sealed
      ⟨sealed.bound, ⟨statement.id, sealed.aliases⟩, true⟩ := by
  obtain ⟨d, run⟩ := sealBound_ok.mp seals.succeeded
  obtain ⟨counted, tree, pass, left, rfl⟩ := Sealing.gives_sealStatement.mp run
  obtain ⟨-, trace⟩ := Sealing.sealTree_trace t.once_number pass
  refine ⟨rfl, rfl, rfl, ⟨tree, ⟨counted.symm, d, pass, rfl⟩, rfl, ?_⟩, trace.object, ?_, ?_⟩
  · rw [left]
    exact (List.length_map _).symm
  · intro fresh key value found
    obtain ⟨part, ledger⟩ := Sealing.sealTree_ledger fresh rfl pass
    rcases ledger.additional key with kept | ⟨n, later, -, rfl⟩
    · exact kept.trans found
    · rw [fresh.additional n later] at found
      cases found
  · intro fresh key missing present
    obtain ⟨part, ledger⟩ := Sealing.sealTree_ledger fresh rfl pass
    rcases ledger.additional key with kept | ⟨n, later, drawn, rfl⟩
    · have none := kept.trans missing
      simp only [Parameters.toBound, none] at present
      cases present
    · refine ⟨⟨n, later, rfl⟩, ?_⟩
      have tally := ledger.tally n later
      rwa [if_pos drawn] at tally

theorem matchesId_iff (i : Interceptor) (id : String) :
    i.matchesId id = true ↔ ∃ head ∈ i.idHeads, head.toList <+: id.toList := by
  simp only [matchesId, List.any_eq_true, Text.startsWith_iff]

/-- A text is sealed exactly if it is one statement with a configured table whose pass succeeds. -/
theorem sealText_ok {i : Interceptor} (inhabited : i.catalog.Inhabited) {handler : Handler}
    {statement : MappedStatement} {bound : BoundStatement} {supply : Supply} {sealed : Sealed} :
    (i.sealText handler statement bound supply).1 = .ok (some sealed) ↔
      ∃ t, Statement.parse i.dialect bound.sql = .ok t ∧
        (∃ name ∈ t.referencedTables, (i.catalog.tableOf? name).isSome) ∧
        (sealBound (.resolve t i.catalog) handler i.options statement.resultMaps bound t
          supply).1 = .ok sealed := by
  unfold sealText
  cases parsed : Statement.parse i.dialect bound.sql with
  | error e => simp
  | ok t =>
    simp only [Except.ok.injEq, exists_eq_left', ← ActiveColumns.isEmpty_resolve inhabited]
    cases empty : (ActiveColumns.resolve t i.catalog).isEmpty with
    | true => simp
    | false =>
      simp only [Bool.false_eq_true, if_false, true_and]
      cases (sealBound (.resolve t i.catalog) handler i.options statement.resultMaps bound t
        supply).1 with
      | error e => simp [Except.map]
      | ok s => simp [Except.map]

/-- Either nothing meets what sealing needs, and the statement is passed on; or something does, and
the statement is what the pass gives. -/
theorem prepare_cases {i : Interceptor} (built : i.Built) (statement : MappedStatement)
    (bound : BoundStatement) (supply : Supply) :
    (Passed statement bound (i.prepare statement bound supply).1 ∧
      ∀ handler t sealed, i.handler = some handler →
        ¬ Seals i handler statement bound supply t sealed) ∨
    ∃ handler t sealed, i.handler = some handler ∧
      Seals i handler statement bound supply t sealed ∧
      (i.prepare statement bound supply).1 =
        ⟨sealed.bound, ⟨statement.id, sealed.aliases⟩, true⟩ := by
  have passed : Passed statement bound (pass statement bound) := ⟨rfl, rfl, rfl⟩
  unfold prepare
  cases known : i.handler with
  | none => exact .inl ⟨passed, fun _ _ _ same => by cases same⟩
  | some handler =>
    cases matched : i.matchesId statement.id with
    | false =>
      refine .inl ⟨by simpa using passed, fun _ _ _ _ seals => ?_⟩
      rw [(i.matchesId_iff _).mpr seals.id] at matched
      contradiction
    | true =>
      by_cases kind : statement.kind = .unknown
      · refine .inl ⟨?_, fun _ _ _ _ seals => ?_⟩
        · simpa [kind, StatementKind.isSealable] using passed
        exact absurd kind seals.kind
      · have sealable : statement.kind.isSealable = true := by
          simp [StatementKind.isSealable, kind]
        simp only [sealable, Bool.not_true, Bool.false_eq_true, if_false]
        by_cases seals : ∃ sealed, (i.sealText handler statement bound supply).1 = .ok (some sealed)
        · obtain ⟨sealed, outcome⟩ := seals
          obtain ⟨t, parsed, configured, succeeded⟩ := (sealText_ok built.inhabited).mp outcome
          exact .inr ⟨handler, t, sealed, rfl,
            ⟨(i.matchesId_iff _).mp matched, kind, parsed, configured, succeeded⟩, by
              simp [outcome]⟩
        · refine .inl ⟨?_, fun _ t sealed same met => seals ⟨sealed, ?_⟩⟩
          · cases outcome : (i.sealText handler statement bound supply).1 with
            | error e => simpa [outcome] using passed
            | ok sealed? =>
              cases sealed? with
              | none => simpa [outcome] using passed
              | some sealed => exact absurd ⟨sealed, outcome⟩ seals
          · cases same
            exact (sealText_ok built.inhabited).mpr
              ⟨t, met.parsed, met.configured, met.succeeded⟩

end Interceptor

open Interceptor in
/-- Preparing gives the statement back as it was, or sealed as a whole; and sealed exactly if the
interceptor is enabled and the statement meets what sealing needs. -/
theorem prepare_all_or_nothing (i : Interceptor) (built : i.Built) (statement : MappedStatement)
    (bound : BoundStatement) (supply : Supply) :
    (Passed statement bound (i.prepare statement bound supply).1 ∨
      ∃ handler t sealed, i.handler = some handler ∧
        Seals i handler statement bound supply t sealed ∧
        SealedWhole i handler statement bound supply t sealed
          (i.prepare statement bound supply).1) ∧
    ((i.prepare statement bound supply).1.isSealed = true ↔
      ∃ handler t sealed, i.handler = some handler ∧
        Seals i handler statement bound supply t sealed) := by
  rcases prepare_cases built statement bound supply with ⟨passed, none⟩ | ⟨handler, t, sealed,
    enabled, seals, same⟩
  · refine ⟨.inl passed, fun isSealed => ?_, fun ⟨handler, t, sealed, enabled, seals⟩ => ?_⟩
    · rw [passed.isSealed] at isSealed
      contradiction
    · exact absurd seals (none handler t sealed enabled)
  · rw [same]
    exact ⟨.inr ⟨handler, t, sealed, enabled, seals, seals.whole⟩,
      fun _ => ⟨handler, t, sealed, enabled, seals⟩, fun _ => rfl⟩

namespace Sample

def config : Config :=
  ⟨true, true, false, some "sample", [], ["users."], [⟨"users", "email", "email_enc", "email_idx"⟩],
    "generic", false⟩

def interceptor : Interceptor :=
  ⟨some handler, ⟨true, false⟩, ["users."], config.catalog, false, .generic⟩

theorem built : interceptor.Built := @Interceptor.Built.ofHandler config handler _ rfl

def mapped : MappedStatement := ⟨"users.add", .insert, []⟩

end Sample

open Sample Interceptor in
theorem prepare_all_or_nothing_insert : interceptor.Built ∧
    ∃ handler t sealed, interceptor.handler = some handler ∧
      Seals interceptor handler mapped bound supply t sealed ∧
      SealedWhole interceptor handler mapped bound supply t sealed
        (interceptor.prepare mapped bound supply).1 := by
  have isSealed : (interceptor.prepare mapped bound supply).1.isSealed = true := by decide +kernel
  refine ⟨built, (prepare_all_or_nothing interceptor built mapped bound supply).1.resolve_left
    fun passed => ?_⟩
  rw [passed.isSealed] at isSealed
  contradiction

end SealedColumns
