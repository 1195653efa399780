import SealedColumns.Proofs.Outcome

/-!
The entry that a column name stands for in a statement. Look-ups go by the name alone, over the
tables in the order in which the statement mentions them: the first table with an entry for the name
decides, and the table that is written comes first.
-/
namespace SealedColumns

open Sql

theorem findSome?_distinct {α β : Type} [BEq α] [LawfulBEq α] (f : α → Option β) (l : List α) :
    (distinct l).findSome? f = l.findSome? f := by
  have skipped : ∀ (a : α) (l : List α), f a = none →
      (l.filter (· != a)).findSome? f = l.findSome? f := by
    intro a l nothing
    induction l with
    | nil => rfl
    | cons b l ih =>
      by_cases same : b = a
      · simp [same, nothing, ih]
      · simp [same, List.findSome?_cons, ih]
  induction l with
  | nil => rfl
  | cons a l ih =>
    rw [distinct, List.findSome?_cons, List.findSome?_cons]
    cases here : f a with
    | some b => rfl
    | none => rw [skipped a _ here, ih]

theorem findSome?_filterMap {α β γ : Type} (f : β → Option γ) (select : α → Option β) (l : List α) :
    (l.filterMap select).findSome? f = l.findSome? fun a => (select a).bind f := by
  induction l with
  | nil => rfl
  | cons a l ih =>
    cases selected : select a with
    | none => simp [selected, ih]
    | some b => simp [selected, List.findSome?_cons, ih]

namespace Catalog

/-- The entries stand under their own tables and sources, once each, and come from the
configuration. -/
structure Filed (columns : List SensitiveColumn) (catalog : Catalog) : Prop where
  entry : ∀ table entries, Members.get? table catalog = some entries → ∀ pair ∈ entries,
    pair.2.table = table ∧ pair.2.source = pair.1 ∧ ∃ column ∈ columns, column.normalized = pair.2
  single : ∀ table entries, Members.get? table catalog = some entries →
    (Members.keys entries).Nodup

theorem Filed.add {columns : List SensitiveColumn} {catalog : Catalog}
    (filed : Filed columns catalog) {column : SensitiveColumn} (listed : column ∈ columns) :
    Filed columns (catalog.add column) := by
  have old : ∀ entries, (Members.get? column.normalized.table catalog).getD [] = entries →
      (∀ pair ∈ entries, pair.2.table = column.normalized.table ∧ pair.2.source = pair.1 ∧
        ∃ column ∈ columns, column.normalized = pair.2) ∧ (Members.keys entries).Nodup := by
    rintro entries rfl
    cases found : Members.get? column.normalized.table catalog with
    | none => exact ⟨fun pair member => absurd member List.not_mem_nil, List.nodup_nil⟩
    | some entries => exact ⟨filed.entry _ _ found, filed.single _ _ found⟩
  obtain ⟨entries, single⟩ := old _ rfl
  constructor
  · intro table found known pair member
    simp only [Catalog.add, Members.get?_insert] at known
    split at known
    · rename_i same
      cases known
      rcases Members.mem_insert_cases member with rfl | before
      · exact ⟨same.symm, rfl, column, listed, rfl⟩
      · rw [same]
        exact entries pair before
    · exact filed.entry table found known pair member
  · intro table found known
    simp only [Catalog.add, Members.get?_insert] at known
    split at known
    · cases known
      exact Members.nodup_insert single _ _
    · exact filed.single table found known

theorem filed_ofColumns (columns : List SensitiveColumn) : Filed columns (ofColumns columns) := by
  have grown : ∀ (rest : List SensitiveColumn) (catalog : Catalog), (∀ c ∈ rest, c ∈ columns) →
      Filed columns catalog → Filed columns (rest.foldl Catalog.add catalog) := by
    intro rest
    induction rest with
    | nil => exact fun _ _ filed => filed
    | cons column rest ih =>
      intro catalog listed filed
      exact ih _ (fun c later => listed c (List.mem_cons_of_mem _ later))
        (filed.add (listed column List.mem_cons_self))
  exact grown columns [] (fun _ listed => listed)
    ⟨fun _ _ found _ _ => absurd found (by simp [Members.get?]),
      fun _ _ found => absurd found (by simp [Members.get?])⟩

/-- The entries of the configured table that a name stands for. -/
def entriesOf (catalog : Catalog) (table : Name) : List SensitiveColumn :=
  ((catalog.tableOf? table).map catalog.columnsOf).getD []

/-- The entry for a source column in the first of the tables that has one. -/
inductive First (catalog : Catalog) (tables : List Name) (source : String) (c : SensitiveColumn) :
    Prop where
  | here {before behind : List Name} {table : Name} : tables = before ++ table :: behind →
      c ∈ catalog.entriesOf table → c.source = source →
      (∀ other ∈ before, ∀ c' ∈ catalog.entriesOf other, c'.source ≠ source) →
        First catalog tables source c

namespace Filed

variable {columns : List SensitiveColumn} {catalog : Catalog}

theorem of_mem_columnsOf (filed : Filed columns catalog) {table : String} {c : SensitiveColumn}
    (member : c ∈ catalog.columnsOf table) :
    c.table = table ∧ ∃ column ∈ columns, column.normalized = c := by
  unfold columnsOf at member
  cases found : Members.get? table catalog with
  | none =>
    rw [found] at member
    cases member
  | some entries =>
    rw [found] at member
    obtain ⟨pair, listed, rfl⟩ := List.mem_map.mp member
    obtain ⟨same, -, origin⟩ := filed.entry table entries found pair listed
    exact ⟨same, origin⟩

theorem tableOf?_of_mem (filed : Filed columns catalog) {table : Name} {c : SensitiveColumn}
    (member : c ∈ catalog.entriesOf table) : catalog.tableOf? table = some c.table := by
  unfold entriesOf at member
  cases known : catalog.tableOf? table with
  | none => simp [known] at member
  | some key =>
    simp only [known, Option.map_some, Option.getD_some] at member
    rw [(filed.of_mem_columnsOf member).1]

end Filed

end Catalog

theorem SensitiveColumn.derives_normalized (c : SensitiveColumn) (name : String) :
    c.normalized.derives name =
      ((Config.comparable c).target == name || (Config.comparable c).index == name) := by
  simp only [derives, normalized, Config.comparable, normalizeIdentifier]

namespace ActiveColumns

variable {t : Statement} {catalog : Catalog}

theorem mem_resolve {c : SensitiveColumn} :
    c ∈ (resolve t catalog).columns ↔
      ∃ table ∈ t.referencedTables, c ∈ catalog.entriesOf table := by
  simp only [resolve, List.mem_flatMap, mem_distinct, List.mem_filterMap, Catalog.entriesOf]
  constructor
  · rintro ⟨key, ⟨table, mentioned, known⟩, entry⟩
    exact ⟨table, mentioned, by simpa [known] using entry⟩
  · rintro ⟨table, mentioned, entry⟩
    cases known : catalog.tableOf? table with
    | none => simp [known] at entry
    | some key => exact ⟨key, ⟨table, mentioned, known⟩, by simpa [known] using entry⟩

/-- Without a scope, the table mentioned first decides. -/
theorem first_of_get? {ident : Ident} {c : SensitiveColumn}
    (found : (resolve t catalog).get? ident = some c) :
    catalog.First t.referencedTables ident.normalized c := by
  have byTable : (t.referencedTables.findSome? fun table =>
      (catalog.entriesOf table).find? fun c => c.source == ident.normalized) = some c := by
    rw [← found]
    simp only [get?, candidates, resolve, List.head?_filter, List.find?_flatMap,
      findSome?_distinct, findSome?_filterMap]
    congr 1
    funext table
    cases known : catalog.tableOf? table <;> simp [Catalog.entriesOf, known]
  obtain ⟨before, table, behind, split, here, nothing⟩ := List.findSome?_eq_some_iff.mp byTable
  refine .here split (List.mem_of_find?_eq_some here) (by simpa using List.find?_some here) ?_
  intro other earlier c' entry
  simpa using List.find?_eq_none.mp (nothing other earlier) c' entry

theorem mem_of_get? {active : ActiveColumns} {ident : Ident} {c : SensitiveColumn}
    (found : active.get? ident = some c) : c ∈ active.columns ∧ c.source = ident.normalized := by
  have member := List.mem_of_head? found
  simpa only [candidates, List.mem_filter, beq_iff_eq] using member

theorem getIn?_eq_some {active : ActiveColumns} {scope : List String} {ident : Ident}
    {c : SensitiveColumn} (found : active.getIn? scope ident = some c) :
    (c ∈ active.columns ∧ c.source = ident.normalized ∧ c.table ∈ scope) ∨
      ((∀ c' ∈ active.columns, c'.source = ident.normalized → c'.table ∉ scope) ∧
        active.get? ident = some c) := by
  unfold getIn? at found
  cases inside : (active.candidates ident).find? fun c => scope.contains c.table with
  | some c' =>
    rw [inside, Option.some_or] at found
    cases found
    have member := List.mem_of_find?_eq_some inside
    simp only [candidates, List.mem_filter, beq_iff_eq] at member
    exact .inl ⟨member.1, member.2, by simpa using List.find?_some inside⟩
  | none =>
    rw [inside, Option.none_or] at found
    refine .inr ⟨fun c' member same => ?_, found⟩
    have candidate : c' ∈ active.candidates ident := by
      simp only [candidates, List.mem_filter, beq_iff_eq]
      exact ⟨member, same⟩
    simpa using List.find?_eq_none.mp inside c' candidate

theorem exists_getIn? {active : ActiveColumns} {scope : List String} {ident : Ident}
    {c : SensitiveColumn} (member : c ∈ active.columns) (source : c.source = ident.normalized)
    (inside : c.table ∈ scope) : ∃ c', active.getIn? scope ident = some c' ∧ c'.table ∈ scope := by
  have candidate : c ∈ active.candidates ident := by
    simpa only [candidates, List.mem_filter, beq_iff_eq] using And.intro member source
  unfold getIn?
  cases found : (active.candidates ident).find? fun c => scope.contains c.table with
  | some c' => exact ⟨c', rfl, by simpa using List.find?_some found⟩
  | none =>
    have outside := List.find?_eq_none.mp found c candidate
    exact absurd (List.contains_iff_mem.mpr inside) outside

end ActiveColumns

namespace Sql

def Visit.table? {ν : Type} : Visit ν → Option Name
  | .table name => some name
  | .value _ => none

theorem Statement.tableNames_eq (t : Statement) :
    t.tableNames = t.visits.filterMap Visit.table? := by
  have passed : ∀ (vs : List (Visit Empty)) (names : List Name),
      (Visitor.pass ⟨fun x names => (x, names), fun name names => names ++ [name]⟩ vs names).2 =
        names ++ vs.filterMap Visit.table? := by
    intro vs
    induction vs with
    | nil => simp [Visitor.pass]
    | cons v vs ih =>
      intro names
      cases v with
      | value x =>
        rw [List.filterMap_cons_none (by rfl)]
        exact ih names
      | table name => simp [Visitor.pass, Visit.table?, ih]
  have walked := congrArg Prod.snd
    (t.visits_walk ⟨fun x names => (x, names), fun name names => names ++ [name]⟩ [])
  exact walked.trans (passed t.visits [])

/-- The table that a statement comes upon first is mentioned first. -/
theorem Statement.referencedTables_first {t : Statement} {name : Name} {names : List Name}
    (first : t.tableNames = name :: names) : ∃ rest, t.referencedTables = name :: rest := by
  cases t with
  | insert x =>
    cases x
    rw [Statement.tableNames_eq] at first
    cases first
    exact ⟨_, rfl⟩
  | _ =>
    simp only [Statement.referencedTables, first]
    exact ⟨_, rfl⟩

end Sql

end SealedColumns
