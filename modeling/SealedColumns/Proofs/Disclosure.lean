import SealedColumns.Proofs.Handover
import SealedColumns.Proofs.Lineage
import SealedColumns.Proofs.Scope
import SealedColumns.Proofs.Store.Reveal

/-!
What the caller is told of the ciphertext columns in a result. An item that is turned to a
ciphertext column has its own output name recorded; an output column that its values reach is
decrypted if it still has that name, but another name that it gets on the way is not recorded.
-/
namespace SealedColumns

open Sql

/-- No result mapping names the column. -/
def Unmapped (maps : List ResultMap) (label : Ident) : Prop :=
  ∀ m ∈ maps.flatMap ResultMap.mappings, normalizeIdentifier m.column ≠ label.normalized

theorem propertyOf_unmapped {maps : List ResultMap} {label : Ident}
    (unmapped : Unmapped maps label) : propertyOf maps label = label.normalized := by
  have none : (maps.flatMap ResultMap.mappings).find?
      (fun m => normalizeIdentifier m.column == label.normalized) = none := by
    refine List.find?_eq_none.mpr fun m member same => ?_
    exact unmapped m member (beq_iff_eq.mp same)
  rw [propertyOf, none]

/-- A column with values of a redirected item: that item's output name is recorded, and under the
same name, letter case aside, the cells of the column are handed to decryption. -/
structure Declared (maps : List ResultMap) (aliases : Members String) (o : Output)
    (label : Ident) : Prop where
  recorded : aliases.get? label.text = some (propertyOf maps label)
  handed : ∀ name, o.name = some name → name.normalized = label.normalized →
    Unmapped maps label → Rows.isPath label.normalized = false →
    ∀ (i : Interceptor) (id : String) (row : Members Json), i.isEnabled = true →
      Rows.Cell i.camelCase label.normalized name.text row →
        i.HandsOver ⟨id, aliases⟩ name.text row

theorem Declared.of_recorded {maps : List ResultMap} {aliases : Members String} {o : Output}
    {label : Ident} (recorded : aliases.get? label.text = some (propertyOf maps label)) :
    Declared maps aliases o label := by
  refine ⟨recorded, fun name _ same unmapped plain i id row enabled cell => ?_⟩
  obtain ⟨handler, known⟩ := Option.isSome_iff_exists.mp enabled
  refine ⟨handler, known, cell.handsOver ?_ plain ?_⟩
  · have lower : Text.asciiLower label.normalized = label.normalized :=
      Text.asciiLower_asciiLower label.text
    have equal : Text.equalIgnoringCase name.text label.normalized = true := by
      rw [Text.equalIgnoringCase, lower, ← same]
      exact beq_self_eq_true _
    rw [Rows.holds, equal, Bool.true_or]
  · rw [(Store.propertiesOf_spec aliases).2, ← propertyOf_unmapped unmapped]
    exact List.mem_map_of_mem (f := Prod.snd) (Members.mem_of_get? recorded)

namespace Sealing

/-- A redirected item reads the ciphertext column under the output name that it had; every other
item stays. -/
inductive ItemRedirected (g : Sealing) (scope : List String) :
    SelectItem Nat → SelectItem Nat → Prop where
  | redirected {item : SelectItem Nat} {label : Ident} {c : SensitiveColumn} :
      g.redirected? scope item = some label → g.projected? scope item.expr = some c →
        ItemRedirected g scope item ⟨item.expr.renameColumn c.target, some label⟩
  | kept {item : SelectItem Nat} :
      g.redirected? scope item = none → ItemRedirected g scope item item

theorem ItemSealed.redirected {g : Sealing} (overwrite : g.options.overwrite = true)
    {scope : List String} {item item' : SelectItem Nat} (run : g.ItemSealed scope item item') :
    g.ItemRedirected scope item item' := by
  cases run with
  | renamed projected labelled =>
    refine .redirected ?_ projected
    rw [redirected?, if_pos overwrite, projected, Option.bind_some, labelled]
  | kept unprojected =>
    refine .kept ?_
    rw [redirected?, if_pos overwrite, unprojected overwrite, Option.bind_none]

end Sealing

/-- Of every query that is sealed with columns overwritten: whatever an output column of the whole
query can hold of a redirected item is declared under that item's output name. -/
theorem redirected_outputs_declared (active : ActiveColumns) (handler : Handler)
    (options : SealOptions) (resultMaps : List ResultMap) (bound : BoundStatement) (q : Query)
    (supply : Supply) (sealed : Sealed) (overwrite : options.overwrite = true)
    (succeeded : (sealBound active handler options resultMaps bound (.query q) supply).1 =
      .ok sealed) :
    ∃ before after, (Statement.query q).number.1 = .query before ∧
      Sealing.Emits ⟨active, handler, options, resultMaps, bound.mappings⟩ bound supply (.query q)
        (.query after) sealed ∧
      Selectwise
        (fun sources => List.Forall₂ (Sealing.ItemRedirected
          ⟨active, handler, options, resultMaps, bound.mappings⟩ (scopeOf sources)))
        (fun _ _ _ => True) before after ∧
      ∀ outs, Sealing.QueryGives ⟨active, handler, options, resultMaps, bound.mappings⟩ ⟨[], []⟩
        before outs → ∀ o ∈ outs, ∀ label, o.origin = some label →
          Declared resultMaps sealed.aliases o label := by
  obtain ⟨tree, emits⟩ := exists_emits succeeded
  have numbered : (Statement.query q).number.1 = .query (q.walk numbering 0).1 := rfl
  obtain ⟨d, pass, rfl⟩ := emits.pass
  rw [numbered] at pass
  simp only [Sealing.sealTree, Seal.gives_bind, Seal.gives_pure] at pass
  obtain ⟨after, _, run, rfl, rfl⟩ := pass
  refine ⟨_, after, numbered, emits, ?_, fun outs gives o member label origin => ?_⟩
  · refine (Sealing.sealQuery_selectwise _ run).imp ⟨fun items => ?_, fun _ => trivial⟩
    exact items.imp fun _ _ item => item.redirected overwrite
  · have around : Sealing.KnownAround ⟨active, handler, options, resultMaps, bound.mappings⟩
        (Sealing.queryLabels ⟨active, handler, options, resultMaps, bound.mappings⟩
          (q.walk numbering 0).1) ⟨[], []⟩ :=
      ⟨fun _ none => absurd none List.not_mem_nil, fun _ none => absurd none List.not_mem_nil⟩
    have known := gives.known around (List.Subset.refl _) o member label origin
    refine .of_recorded ?_
    rw [Sealing.records_sealQuery _ _ _ _ run]
    exact get?_foldl_recordIn (.inl known)

namespace Sample

def reader : Interceptor :=
  ⟨some handler, ⟨true, false⟩, ["users."], readConfig.catalog, false, .generic⟩

/-- `SELECT t.ssn FROM (SELECT ssn FROM users) t`, possibly under another output name. -/
def wrapped (label : Option Ident) : Query :=
  select ⟨.column [.bare "t"] (.bare "ssn"), label⟩
    ⟨.derived false (ownSelect "ssn" none) (some ⟨false, .bare "t", []⟩), []⟩ none

def wrappedSealed (label : String) : Sealed :=
  ⟨⟨"SELECT t.ssn" ++ label ++ " FROM (SELECT ssn_enc AS ssn FROM users) t", [], .null, []⟩,
    [("ssn", "ssn")]⟩

def wrappedSealing (label : Option Ident) : Sealing :=
  ⟨.resolve (.query (wrapped label)) readConfig.catalog, handler, ⟨true, false⟩, [], []⟩

/-- The column comes from the redirected item of the derived table. -/
theorem wrapped_gives (label : Option Ident) :
    ∃ before, (Statement.query (wrapped label)).number.1 = .query before ∧
      (wrappedSealing label).QueryGives ⟨[], []⟩ before
        [⟨some (label.getD (.bare "ssn")), some (.bare "ssn")⟩] := by
  refine ⟨_, rfl, ?_⟩
  have inner : (wrappedSealing label).QueryGives
      ⟨[⟨false, []⟩], []⟩ (ownSelect "ssn" none) [⟨some (.bare "ssn"), some (.bare "ssn")⟩] := by
    have untraced : ∀ o ∈ ([] : List Output), o.origin = none :=
      fun _ member => absurd member List.not_mem_nil
    exact .query (.select (by decide) (.cons (.base untraced) .nil .nil)
      (.cons (.redirected rfl) .nil))
  refine .query (.select (by decide) (.cons (.derived inner) .nil .nil) ?_)
  refine .cons (.reference (o := ⟨some (.bare "ssn"), some (.bare "ssn")⟩) ?_ rfl) .nil
  exact ⟨_, List.mem_cons_self, List.mem_cons_self, .inr rfl⟩

end Sample

open Sample in
theorem redirected_outputs_declared_derived :
    (⟨true, false⟩ : SealOptions).overwrite = true ∧
    (sealBound (.resolve (.query (wrapped none)) readConfig.catalog) handler ⟨true, false⟩ []
      noInput (.query (wrapped none)) supply).1 = .ok (wrappedSealed "") ∧
    ∃ before after, (Statement.query (wrapped none)).number.1 = .query before ∧
      Sealing.Emits (wrappedSealing none) noInput supply (.query (wrapped none)) (.query after)
        (wrappedSealed "") ∧
      Selectwise
        (fun sources => List.Forall₂
          (Sealing.ItemRedirected (wrappedSealing none) (scopeOf sources)))
        (fun _ _ _ => True) before after ∧
      ∀ outs, Sealing.QueryGives (wrappedSealing none) ⟨[], []⟩ before outs → ∀ o ∈ outs,
        ∀ label, o.origin = some label → Declared [] (wrappedSealed "").aliases o label := by
  have succeeded : (sealBound (.resolve (.query (wrapped none)) readConfig.catalog) handler
      ⟨true, false⟩ [] noInput (.query (wrapped none)) supply).1 = .ok (wrappedSealed "") := by
    with_unfolding_all rfl
  exact ⟨rfl, succeeded, redirected_outputs_declared _ handler ⟨true, false⟩ [] noInput
    (wrapped none) supply (wrappedSealed "") rfl succeeded⟩

namespace Sample

def dotted : Ident := ⟨"a.b", some '"'⟩

/-- `SELECT ssn AS "a.b" FROM users`. -/
def dottedSealed : Sealed :=
  ⟨⟨"SELECT ssn_enc AS \"a.b\" FROM users", [], .null, []⟩, [("a.b", "a.b")]⟩

/-- `SELECT ssn AS SSN, note AS ssn FROM users`. -/
def doubled : Query :=
  ⟨false, [], .select ⟨.standard, [], [⟨.column [] (.bare "ssn"), some (.bare "SSN")⟩,
    ⟨.column [] (.bare "note"), some (.bare "ssn")⟩], [users []], none, []⟩, []⟩

def doubledSealed : Sealed :=
  ⟨⟨"SELECT ssn_enc AS SSN, note AS ssn FROM users", [], .null, []⟩, [("SSN", "ssn")]⟩

/-- A sealed statement, and what `fetch` makes of a row that it gives. -/
structure Fetches (q : Query) (sealed : Sealed) (row row' : Members Json) : Prop where
  succeeded : (sealBound (.resolve (.query q) readConfig.catalog) handler ⟨true, false⟩ [] noInput
    (.query q) supply).1 = .ok sealed
  fetched : (reader.fetch ⟨"users.all", sealed.aliases⟩ (.rows [.object row])).value =
    .rows [.object row']

end Sample

open Sample in
/-- A name that an outer select gives the column is not recorded, and its cells are left; so are
those under a name that reads as a path, or that another column has in another letter case. -/
theorem renamed_output_undeclared :
    ((∃ before, (Statement.query (wrapped (some (.bare "x")))).number.1 = .query before ∧
        (wrappedSealing (some (.bare "x"))).QueryGives ⟨[], []⟩ before
          [⟨some (.bare "x"), some (.bare "ssn")⟩]) ∧
      (wrappedSealed " AS x").aliases.get? "x" = none ∧
      Fetches (wrapped (some (.bare "x"))) (wrappedSealed " AS x")
        [("x", .string "#1")] [("x", .string "#1")]) ∧
    Fetches (ownSelect "ssn" (some dotted)) dottedSealed
      [("a.b", .string "#1")] [("a.b", .string "#1")] ∧
    Fetches doubled doubledSealed [("SSN", .string "#1"), ("ssn", .string "#2")]
      [("SSN", .string "#1"), ("ssn", .string "2")] := by
  refine ⟨⟨wrapped_gives (some (.bare "x")), ?_, ?_, ?_⟩, ⟨?_, ?_⟩, ?_, ?_⟩
  · decide
  all_goals with_unfolding_all rfl

end SealedColumns
