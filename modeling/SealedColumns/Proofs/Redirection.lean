import SealedColumns.Proofs.Idempotence
import SealedColumns.Proofs.Reached
import SealedColumns.Proofs.Scope

/-!
The whole effect of sealing a query on its result: which items of which selects are turned to a
ciphertext column, under which name and from which column they are then read, and which names and
properties the caller is told for it.
-/
namespace SealedColumns

open Sql

def Sql.SelectItem.outputName? {ν : Type} (item : SelectItem ν) : Option Ident :=
  item.label.or item.expr.columnName?

/-- What the result mappings make of an output name: its letter case does not count, and of several
mappings of a column the first one does. -/
inductive PropertyNamed (maps : List ResultMap) (key : String) : String → Prop where
  | mapped {before behind : List ResultMapping} {m : ResultMapping} :
      maps.flatMap ResultMap.mappings = before ++ m :: behind →
      normalizeIdentifier m.column = Text.asciiLower key →
      (∀ m' ∈ before, normalizeIdentifier m'.column ≠ Text.asciiLower key) →
        PropertyNamed maps key m.property
  | unmapped :
      (∀ m ∈ maps.flatMap ResultMap.mappings, normalizeIdentifier m.column ≠ Text.asciiLower key) →
        PropertyNamed maps key (Text.asciiLower key)

theorem propertyNamed_iff {maps : List ResultMap} {label : Ident} {property : String} :
    PropertyNamed maps label.text property ↔ property = propertyOf maps label := by
  unfold propertyOf
  constructor
  · intro named
    cases named with
    | @mapped before behind m split here first =>
      have found : (maps.flatMap ResultMap.mappings).find?
          (fun m => normalizeIdentifier m.column == label.normalized) = some m := by
        refine List.find?_eq_some_iff_append.mpr ⟨beq_iff_eq.mpr here, before, behind, split, ?_⟩
        exact fun m' earlier => by simpa [Ident.normalized] using first m' earlier
      rw [found]
    | unmapped other =>
      have none : (maps.flatMap ResultMap.mappings).find?
          (fun m => normalizeIdentifier m.column == label.normalized) = none :=
        List.find?_eq_none.mpr fun m member same => other m member (beq_iff_eq.mp same)
      rw [none]
      rfl
  · rintro rfl
    split
    · rename_i m found
      obtain ⟨here, before, behind, split, first⟩ := List.find?_eq_some_iff_append.mp found
      refine .mapped split (beq_iff_eq.mp here) fun m' earlier => ?_
      simpa [Ident.normalized] using first m' earlier
    · rename_i none
      exact .unmapped fun m member same =>
        List.find?_eq_none.mp none m member (beq_iff_eq.mpr same)

namespace Sealing

/-- The active column that a select reads for a name: the first of that source name whose table its
own FROM clause has a key of. -/
def OwnColumn (g : Sealing) (scope : List String) (name : Ident) (c : SensitiveColumn) : Prop :=
  g.active.columns.find? (fun c => c.source == name.normalized && scope.contains c.table) = some c

/-- The items that are turned to a ciphertext column. -/
structure Redirectable (g : Sealing) (scope : List String) (item : SelectItem Nat) : Prop where
  overwrite : g.options.overwrite = true
  column : ∃ qualifier name, item.expr = .column qualifier name ∧ g.active.isDerived name = false ∧
    ∃ c ∈ g.active.columns, c.source = name.normalized ∧ c.table ∈ scope

/-- An item and what it is turned to: another one if and only if it is to be redirected. -/
structure ItemRedirects (g : Sealing) (scope : List String) (item item' : SelectItem Nat) :
    Prop where
  name : item'.outputName? = item.outputName?
  changed : item' ≠ item ↔ g.Redirectable scope item
  reads : item' ≠ item → ∃ qualifier name c, item.expr = .column qualifier name ∧
    g.OwnColumn scope name c ∧
    item' = ⟨.column qualifier { name with text := c.target }, some (item.label.getD name)⟩

section Items

variable {g : Sealing} {scope : List String} {item item' : SelectItem Nat} {c : SensitiveColumn}
  {qualifier : List Ident} {name label : Ident}

theorem exists_ownColumn : (∃ c, g.OwnColumn scope name c) ↔
    ∃ c ∈ g.active.columns, c.source = name.normalized ∧ c.table ∈ scope := by
  simp only [OwnColumn, ← Option.isSome_iff_exists, List.find?_isSome, Bool.and_eq_true,
    beq_iff_eq, List.contains_iff_mem]

/-- Only where the FROM clause has no column of the name is one of another table looked up, and that
one is not projected. -/
theorem getIn?_ownColumn : (g.active.getIn? scope name).filter (fun c => scope.contains c.table) =
    g.active.columns.find? (fun c => c.source == name.normalized && scope.contains c.table) := by
  have inside : (g.active.candidates name).find? (fun c => scope.contains c.table) =
      g.active.columns.find? (fun c => c.source == name.normalized && scope.contains c.table) := by
    rw [ActiveColumns.candidates, List.find?_filter]
    simp only [Bool.decide_and, Bool.decide_eq_true]
  unfold ActiveColumns.getIn?
  rw [inside]
  cases found : g.active.columns.find?
      (fun c => c.source == name.normalized && scope.contains c.table) with
  | some c =>
    have here := List.find?_some found
    simp only [Bool.and_eq_true] at here
    rw [Option.some_or, Option.filter_some, if_pos here.2]
  | none =>
    rw [Option.none_or, Option.filter_eq_none_iff]
    intro c first contained
    obtain ⟨member, source⟩ := ActiveColumns.mem_of_get? first
    have other := List.find?_eq_none.mp found c member
    simp only [source, contained, beq_self_eq_true, Bool.and_self, not_true_eq_false] at other

theorem projected?_eq_some {e : Expr Nat} : g.projected? scope e = some c ↔
    ∃ qualifier name, e = .column qualifier name ∧ g.active.isDerived name = false ∧
      g.OwnColumn scope name c := by
  cases e with
  | column qualifier name =>
    have same : g.projected? scope (.column qualifier name) =
        if g.active.isDerived name then none else g.active.columns.find?
          (fun c => c.source == name.normalized && scope.contains c.table) := by
      rw [← getIn?_ownColumn]
      simp only [projected?, sensitive?, Expr.columnName?]
      split <;> rfl
    rw [same]
    cases derived : g.active.isDerived name <;> simp [OwnColumn, derived]
  | _ => simp [projected?, sensitive?, Expr.columnName?]

theorem redirectable_iff : g.Redirectable scope item ↔
    g.options.overwrite = true ∧ ∃ c, g.projected? scope item.expr = some c := by
  constructor
  · rintro ⟨overwrite, qualifier, name, same, underived, own⟩
    obtain ⟨c, first⟩ := exists_ownColumn.mpr own
    exact ⟨overwrite, c, projected?_eq_some.mpr ⟨qualifier, name, same, underived, first⟩⟩
  · rintro ⟨overwrite, c, projected⟩
    obtain ⟨qualifier, name, same, underived, first⟩ := projected?_eq_some.mp projected
    exact ⟨overwrite, qualifier, name, same, underived, exists_ownColumn.mp ⟨c, first⟩⟩

theorem redirected?_eq_some : g.redirected? scope item = some label ↔
    g.Redirectable scope item ∧ item.outputName? = some label := by
  rw [redirectable_iff, redirected?, SelectItem.outputName?]
  cases g.options.overwrite <;> simp [Option.bind_eq_some_iff]

theorem ItemRedirects.kept (other : ¬ g.Redirectable scope item) :
    g.ItemRedirects scope item item :=
  ⟨rfl, iff_of_false (fun differs => differs rfl) other, fun differs => absurd rfl differs⟩

/-- The ciphertext column is derived and the name was not, so the item is another one. -/
theorem ItemRedirects.of_column (overwrite : g.options.overwrite = true)
    (underived : g.active.isDerived name = false) (own : g.OwnColumn scope name c)
    (label : Option Ident) :
    g.ItemRedirects scope ⟨.column qualifier name, label⟩
      ⟨.column qualifier { name with text := c.target }, some (label.getD name)⟩ := by
  have member : c ∈ g.active.columns := List.mem_of_find?_eq_some own
  have differs : ({ name with text := c.target } : Ident) ≠ name := by
    intro same
    have derived := ActiveColumns.isDerived_target member name
    rw [same, underived] at derived
    cases derived
  refine ⟨by cases label <;> rfl, iff_of_true (fun same => ?_) ⟨overwrite, qualifier, name, rfl,
    underived, exists_ownColumn.mp ⟨c, own⟩⟩, fun _ => ⟨qualifier, name, c, rfl, own, rfl⟩⟩
  injection same with column
  injection column with _ text
  exact differs text

theorem sealItem_redirects (overwrite : g.options.overwrite = true) {d d' : Draft}
    (run : (g.sealItem scope item).Gives d item' d') : g.ItemRedirects scope item item' := by
  obtain ⟨e, itemLabel⟩ := item
  unfold sealItem at run
  split at run
  · rename_i c label projected labelled
    simp only [recordAlias, Seal.gives_bind, Seal.gives_modify, Seal.gives_pure] at run
    obtain ⟨_, _, -, rfl, -⟩ := run
    obtain ⟨qualifier, name, rfl, underived, own⟩ := projected?_eq_some.mp projected
    obtain rfl : itemLabel.getD name = label := by
      cases itemLabel <;> exact Option.some.inj labelled
    exact .of_column overwrite underived own itemLabel
  · rename_i unmatched
    rw [Seal.gives_pure] at run
    obtain ⟨rfl, -⟩ := run
    refine .kept fun redirectable => ?_
    obtain ⟨-, c, projected⟩ := redirectable_iff.mp redirectable
    obtain ⟨_, name, rfl, -⟩ := projected?_eq_some.mp projected
    exact unmatched c (itemLabel.getD name) projected (by cases itemLabel <;> rfl)

theorem sealProjection_redirects {sources : List (FromItem Nat)}
    {items items' : List (SelectItem Nat)} {d d' : Draft}
    (run : (g.sealProjection (scopeOf sources) items).Gives d items' d') :
    List.Forall₂ (g.ItemRedirects (scopeOf sources)) items items' := by
  unfold sealProjection at run
  split at run
  · rename_i active
    have overwrite := (Bool.and_eq_true_iff.mp active).1
    exact (Seal.gives_mapM run).imp fun _ _ ⟨_, _, step⟩ => sealItem_redirects overwrite step
  · rename_i idle
    rw [Seal.gives_pure] at run
    obtain ⟨rfl, -⟩ := run
    refine List.forall₂_same.mpr fun item _ => .kept fun redirectable => ?_
    obtain ⟨overwrite, _, _, _, _, _, _, _, inside⟩ := redirectable
    have empty : scopeOf sources = [] := by simpa [overwrite] using idle
    rw [empty] at inside
    exact List.not_mem_nil inside

end Items

/-- What a pass makes of a query and tells of it. -/
structure QueryRedirects (g : Sealing) (before after : Query Nat) (aliases : Members String) :
    Prop where
  /-- Apart from projections and filters the query stays as it is. -/
  selectwise : Selectwise (fun sources => List.Forall₂ (g.ItemRedirects (scopeOf sources)))
    (fun _ _ _ => True) before after
  /-- Select by select, the items keep their places. -/
  items : List.Forall₂ (fun s s' : Select Nat =>
    List.Forall₂ (g.ItemRedirects (scopeOf s.sources)) s.projection s'.projection)
    before.selects after.selects
  /-- The names that are told are those of the items that are redirected, and the property of a name
  does not depend on the select that it comes from. -/
  recorded : ∀ key property, aliases.get? key = some property ↔
    (∃ s ∈ before.selects, ∃ item ∈ s.projection, g.Redirectable (scopeOf s.sources) item ∧
      ∃ name, item.outputName? = some name ∧ name.text = key) ∧
    PropertyNamed g.resultMaps key property
  /-- No name is told twice. -/
  single : aliases.keys.Nodup

end Sealing

section Recorded

variable {maps : List ResultMap} {labels : List Ident} {aliases : Members String}

theorem get?_foldl_recordIn_other {key : String} (other : ∀ label ∈ labels, label.text ≠ key) :
    Members.get? key (labels.foldl (recordIn maps) aliases) = aliases.get? key := by
  induction labels generalizing aliases with
  | nil => rfl
  | cons first rest ih =>
    rw [List.foldl_cons, ih fun label member => other label (List.mem_cons_of_mem _ member),
      recordIn, Members.get?_insert, if_neg fun same => other first List.mem_cons_self same.symm]

theorem nodup_foldl_recordIn (single : aliases.keys.Nodup) :
    (Members.keys (labels.foldl (recordIn maps) aliases)).Nodup := by
  induction labels generalizing aliases with
  | nil => exact single
  | cons first rest ih => exact ih (Members.nodup_insert single _ _)

/-- From nothing recorded, the names that are found afterwards are those of the labels. -/
theorem get?_recorded {key property : String} :
    Members.get? key (labels.foldl (recordIn maps) []) = some property ↔
      (∃ label ∈ labels, label.text = key) ∧ PropertyNamed maps key property := by
  constructor
  · intro found
    by_cases listed : ∃ label ∈ labels, label.text = key
    · refine ⟨listed, ?_⟩
      obtain ⟨label, member, rfl⟩ := listed
      rw [get?_foldl_recordIn (.inl member)] at found
      exact propertyNamed_iff.mpr (Option.some.inj found).symm
    · rw [get?_foldl_recordIn_other fun label member same => listed ⟨label, member, same⟩] at found
      cases found
  · rintro ⟨⟨label, member, rfl⟩, named⟩
    rw [get?_foldl_recordIn (.inl member), propertyNamed_iff.mp named]

end Recorded

theorem Sealing.redirects_iff {g : Sealing} {selects : List (Select Nat)} {key : String} :
    (∃ label, g.Redirects label selects ∧ label.text = key) ↔
      ∃ s ∈ selects, ∃ item ∈ s.projection, g.Redirectable (scopeOf s.sources) item ∧
        ∃ name, item.outputName? = some name ∧ name.text = key := by
  simp only [Redirects, redirected?_eq_some]
  constructor
  · rintro ⟨label, ⟨s, reached, item, member, redirectable, named⟩, text⟩
    exact ⟨s, reached, item, member, redirectable, label, named, text⟩
  · rintro ⟨s, reached, item, member, redirectable, label, named, text⟩
    exact ⟨label, ⟨s, reached, item, member, redirectable, named⟩, text⟩

theorem redirections_exact (active : ActiveColumns) (handler : Handler) (options : SealOptions)
    (resultMaps : List ResultMap) (bound : BoundStatement) (q : Query) (supply : Supply)
    (sealed : Sealed)
    (succeeded : (sealBound active handler options resultMaps bound (.query q) supply).1 =
      .ok sealed) :
    ∃ before after, (Statement.query q).number.1 = .query before ∧
      Sealing.Emits ⟨active, handler, options, resultMaps, bound.mappings⟩ bound supply (.query q)
        (.query after) sealed ∧
      Sealing.QueryRedirects ⟨active, handler, options, resultMaps, bound.mappings⟩ before after
        sealed.aliases := by
  obtain ⟨tree, emits⟩ := exists_emits succeeded
  obtain ⟨d, pass, same⟩ := emits.pass
  have numbered : (Statement.query q).number.1 = .query (q.walk numbering 0).1 := rfl
  rw [numbered] at pass
  simp only [Sealing.sealTree, Seal.gives_bind, Seal.gives_pure] at pass
  obtain ⟨after, _, run, rfl, rfl⟩ := pass
  -- What becomes of the filters is left open.
  have selects : Sealing.SelectRuns ⟨active, handler, options, resultMaps, bound.mappings⟩ _
      (fun _ _ _ => True) := ⟨Sealing.sealProjection_redirects, fun _ => trivial⟩
  have selectwise := Sealing.sealQuery_runs selects _ run
  have aliases := Sealing.records_sealQuery _ _ _ _ run
  refine ⟨_, after, numbered, emits, selectwise, ?_, fun key property => ?_, ?_⟩
  · exact selectwise.selects.imp fun _ _ related => related.projection
  · rw [same, aliases, Sealing.draftOf, get?_recorded, ← Sealing.redirects_iff]
    simp only [Sealing.mem_queryLabels]
  · rw [same, aliases]
    exact nodup_foldl_recordIn List.nodup_nil

namespace Sample

/-- `WITH a AS (SELECT ssn FROM users) SELECT ssn FROM a`. -/
def renamedRead : Query :=
  ⟨false, [⟨.bare "a", [], none, ownSelect "ssn" none⟩],
    (select ⟨.column [] (.bare "ssn"), none⟩ ⟨.table [.bare "a"] false [] none, []⟩ none).body, []⟩

def userMap : ResultMap := ⟨"userMap", [⟨"`SSN`", "userSsn"⟩]⟩

def renamedSealed : Sealed :=
  ⟨⟨"WITH a AS (SELECT ssn_enc AS ssn FROM users) SELECT ssn FROM a", [], .null, []⟩,
    [("ssn", "userSsn")]⟩

end Sample

open Sample in
theorem redirections_exact_renamed :
    (sealBound (.resolve (.query renamedRead) readConfig.catalog) handler ⟨true, false⟩ [userMap]
      noInput (.query renamedRead) supply).1 = .ok renamedSealed ∧
    ∃ before after, (Statement.query renamedRead).number.1 = .query before ∧
      Sealing.Emits ⟨.resolve (.query renamedRead) readConfig.catalog, handler, ⟨true, false⟩,
        [userMap], []⟩ noInput supply (.query renamedRead) (.query after) renamedSealed ∧
      Sealing.QueryRedirects ⟨.resolve (.query renamedRead) readConfig.catalog, handler,
        ⟨true, false⟩, [userMap], []⟩ before after [("ssn", "userSsn")] := by
  have succeeded : (sealBound (.resolve (.query renamedRead) readConfig.catalog) handler
      ⟨true, false⟩ [userMap] noInput (.query renamedRead) supply).1 = .ok renamedSealed := by
    with_unfolding_all rfl
  exact ⟨succeeded, redirections_exact _ handler ⟨true, false⟩ [userMap] noInput renamedRead supply
    renamedSealed succeeded⟩

end SealedColumns
