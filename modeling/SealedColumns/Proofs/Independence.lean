import Mathlib.Data.List.Flatten
import SealedColumns.Proofs.Determined
import SealedColumns.Proofs.Faults
import SealedColumns.Proofs.Redirection
import SealedColumns.Proofs.Scoping
import SealedColumns.Proofs.Shares

/-!
Selects are sealed independently of each other. Whatever query a select stands in, it becomes what
it becomes as a query of its own, its placeholders are bound to the same values, and it records the
same names; the query fails where the first of its selects fails on its own. Scopes do not leak.
-/
namespace SealedColumns

open Sql Seal

namespace Sealing

/-- What a pass over a query makes of its selects, against passes over each of them alone. Those may
draw other names; `before` is the query with numbered placeholders. -/
structure SealsApart (g : Sealing) (bound : BoundStatement) (supply own : Supply) (q : Query)
    (before : Query Nat) (result : Except Error Sealed) : Prop where
  /-- The rest of the query stays as it is, and each select becomes what it becomes alone. -/
  forms : ∀ sealed, result = .ok sealed → ∃ after,
    g.Emits bound supply (.query q) (.query after) sealed ∧
    Selectwise (fun _ _ _ => True) (fun _ _ _ => True) before after ∧
    List.Forall₂ (fun s s' => ∃ d, (g.sealQuery s.alone).Gives (draftOf bound own) s'.alone d ∧
      ∀ n, some n ∈ originsOf s.visits →
        outputValue (.query after) sealed.bound n = d.parameters.boundValue? n)
      before.selects after.selects
  /-- The names that are told are those that the selects tell alone. -/
  aliases : ∀ sealed, result = .ok sealed → sealed.aliases.keys.Nodup ∧
    ∀ key property, sealed.aliases.get? key = some property ↔
      ∃ s ∈ before.selects, ∃ s' d, (g.sealQuery s.alone).Gives (draftOf bound own) s' d ∧
        d.aliases.get? key = some property
  /-- The first select that fails alone decides the error. -/
  fails : (Statement.query q).countAnonymous = bound.mappings.length → ∀ e,
    result = .error e ↔ ∃ earlier s later, before.selects = earlier ++ s :: later ∧
      (g.sealQuery s.alone).Fails (draftOf bound own) e ∧
      ∀ t ∈ earlier, ∃ t' d, (g.sealQuery t.alone).Gives (draftOf bound own) t' d
  /-- With the scope in a cell that all selects share, the pass is the same. -/
  walk : ∀ outer, (g.scopedQuery before).run (outer, draftOf bound supply) =
    (((g.sealQuery before).run (draftOf bound supply)).1, outer,
      ((g.sealQuery before).run (draftOf bound supply)).2)
  /-- A select leaves the scope that it finds, also when it fails. -/
  scope : ∀ (s : Select Nat) outer d, (g.scopedSelect s).run (outer, d) =
    (((g.sealSelect s).run d).1, outer, ((g.sealSelect s).run d).2)

variable {g : Sealing} {bound : BoundStatement} {supply own : Supply} {q q' : Query Nat}
  {d : Draft} {e : Error}

section Aliases

theorem redirects_alone {label : Ident} : g.Redirects label q.selects ↔
    ∃ s ∈ q.selects, g.Redirects label s.alone.selects := by
  constructor
  · rintro ⟨s, member, item, listed, redirected⟩
    refine ⟨s, member, s, ?_, item, listed, redirected⟩
    rw [s.selects_alone]
    exact List.mem_append_right _ (List.mem_singleton_self s)
  · rintro ⟨s, member, t, inside, redirects⟩
    exact ⟨t, (q.sourcesFirst.sublist member).subset inside, redirects⟩

/-- The names that a pass over a query tells. -/
theorem told_iff (run : (g.sealQuery q).Gives (draftOf bound supply) q' d) {key property : String} :
    d.aliases.get? key = some property ↔
      (∃ label, g.Redirects label q.selects ∧ label.text = key) ∧
        PropertyNamed g.resultMaps key property := by
  rw [records_sealQuery _ _ _ _ run, draftOf, get?_recorded]
  simp only [mem_queryLabels]

theorem told_alone (run : (g.sealQuery q).Gives (draftOf bound supply) q' d)
    (succeeds : ∀ s ∈ q.selects, ∃ s' d', (g.sealQuery s.alone).Gives (draftOf bound own) s' d')
    {key property : String} : d.aliases.get? key = some property ↔
      ∃ s ∈ q.selects, ∃ s' d', (g.sealQuery s.alone).Gives (draftOf bound own) s' d' ∧
        d'.aliases.get? key = some property := by
  rw [told_iff run]
  constructor
  · rintro ⟨⟨label, redirects, text⟩, named⟩
    obtain ⟨s, member, redirects⟩ := redirects_alone.mp redirects
    obtain ⟨s', d', alone⟩ := succeeds s member
    exact ⟨s, member, s', d', alone, (told_iff alone).mpr ⟨⟨label, redirects, text⟩, named⟩⟩
  · rintro ⟨s, member, s', d', alone, told⟩
    obtain ⟨⟨label, redirects, text⟩, named⟩ := (told_iff alone).mp told
    exact ⟨⟨label, redirects_alone.mpr ⟨s, member, redirects⟩, text⟩, named⟩

end Aliases

section Failures

variable (poised : g.Poised bound (g.selectsRequests q.selects) (draftOf bound supply))
  (inputs : g.inputs = bound.mappings) (apart : g.Apart (draftOf bound own))

include poised inputs apart

theorem alone_fails_iff {s : Select Nat} (member : s ∈ q.selects) :
    (g.sealQuery s.alone).Fails (draftOf bound own) e ↔
      s.alone.selects.findSome? (g.selectFault? bound) = some e :=
  sealQuery_fails_iff (poised.part ((q.sourcesFirst.sublist member).flatMap _) apart) inputs

theorem alone_gives_iff {s : Select Nat} (member : s ∈ q.selects) :
    (∃ s' d', (g.sealQuery s.alone).Gives (draftOf bound own) s' d') ↔
      s.alone.selects.findSome? (g.selectFault? bound) = none := by
  have fails := fun e => alone_fails_iff poised inputs apart member (e := e)
  constructor
  · rintro ⟨s', d', gives⟩
    exact Option.eq_none_iff_forall_ne_some.mpr fun e fault =>
      gives.not_fails e ((fails e).mpr fault)
  · intro none
    refine (fails_or_gives _ _).resolve_left ?_
    rintro ⟨e, failed⟩
    rw [fails, none] at failed
    cases failed

/-- The first select that fails on its own is the one that a query fails with. -/
theorem sealQuery_fails_alone : (g.sealQuery q).Fails (draftOf bound supply) e ↔
    ∃ earlier s later, q.selects = earlier ++ s :: later ∧
      (g.sealQuery s.alone).Fails (draftOf bound own) e ∧
      ∀ t ∈ earlier, ∃ t' d', (g.sealQuery t.alone).Gives (draftOf bound own) t' d' := by
  rw [sealQuery_fails_iff poised inputs, q.sourcesFirst.findSome?, List.findSome?_eq_some_iff]
  constructor
  · rintro ⟨earlier, s, later, split, fault, sound⟩
    refine ⟨earlier, s, later, split, ?_, fun t listed => ?_⟩
    · exact (alone_fails_iff poised inputs apart (by simp [split])).mpr fault
    · exact (alone_gives_iff poised inputs apart (by simp [split, listed])).mpr (sound t listed)
  · rintro ⟨earlier, s, later, split, failed, succeed⟩
    refine ⟨earlier, s, later, split, ?_, fun t listed => ?_⟩
    · exact (alone_fails_iff poised inputs apart (by simp [split])).mp failed
    · exact (alone_gives_iff poised inputs apart (by simp [split, listed])).mp (succeed t listed)

theorem alone_succeeds (run : (g.sealQuery q).Gives (draftOf bound supply) q' d) {s : Select Nat}
    (member : s ∈ q.selects) :
    ∃ s' d', (g.sealQuery s.alone).Gives (draftOf bound own) s' d' := by
  have sound : q.selects.findSome? (g.selectFault? bound) = none :=
    Option.eq_none_iff_forall_ne_some.mpr fun e fault =>
      run.not_fails e ((sealQuery_fails_iff poised inputs).mpr fault)
  rw [q.sourcesFirst.findSome?, List.findSome?_eq_none_iff] at sound
  exact (alone_gives_iff poised inputs apart member).mpr (sound s member)

end Failures

section Values

/-- The value of a placeholder behind a pass over a query. -/
theorem sealQuery_boundValue? (fresh : supply.Fresh bound) (inputs : g.inputs = bound.mappings)
    (single : (g.queryCompared q).Nodup)
    (run : (g.sealQuery q).Gives (draftOf bound supply) q' d) {n : Nat} {m : ParameterMapping}
    (known : bound.mappings[n]? = some m) : d.parameters.boundValue? n =
      some (comparedValue g.handler (g.queryCompared q) n
        ((Parameters.ofBound bound).valueOf m)) := by
  have ordinals : (comparing (g.queryCompared q)).map Act.ordinal = g.queryCompared q := by
    simp [comparing, Function.comp_def, Act.ordinal]
  obtain ⟨part, ledger⟩ := (ledger_start fresh).trace (sealQuery_trace q run).2 fresh inputs
    (by rwa [List.nil_append, ordinals])
  exact ledger.boundValue? fresh known

theorem nodup_queryCompared (once : Once (originsOf q.visits)) : (g.queryCompared q).Nodup :=
  Within.nodup (fun n => g.count_queryCompared n q) once

/-- A placeholder of a select is bound to the same value behind both passes. -/
theorem Emits.outputValue_alone {q : Query} {before after : Query Nat} {sealed : Sealed}
    (numbered : (Statement.query q).number.1 = .query before)
    (emits : g.Emits bound supply (.query q) (.query after) sealed) (fresh : supply.Fresh bound)
    (freshOwn : own.Fresh bound) (inputs : g.inputs = bound.mappings) {s : Select Nat}
    (member : s ∈ before.selects) {s' : Query Nat}
    (alone : (g.sealQuery s.alone).Gives (draftOf bound own) s' d) {n : Nat}
    (listed : some n ∈ originsOf s.visits) :
    outputValue (.query after) sealed.bound n = d.parameters.boundValue? n := by
  have once : Once (originsOf before.visits) := by
    have once := (Statement.query q).once_number
    rwa [numbered] at once
  have inside : n < bound.mappings.length := by
    have origins := (Statement.query q).origins_number
    rw [numbered, ← emits.counted] at origins
    have present : some n ∈ (List.range bound.mappings.length).map some :=
      origins ▸ g.mem_origins_of_select member listed
    simpa using present
  have known : bound.mappings[n]? = some bound.mappings[n] := List.getElem?_eq_getElem inside
  have single := (nodup_queryCompared (g := g) once).sublist (g.queryCompared_sublist member)
  obtain ⟨_, part, ledger, aligned, rfl⟩ := emits.ledger fresh inputs
  rw [numbered] at ledger
  have compares : Ledger g bound supply (comparing (g.queryCompared before)) _ part := ledger
  rw [compares.outputValue fresh known aligned,
    sealQuery_boundValue? freshOwn inputs single alone known]
  simp only [comparedValue, g.mem_queryCompared_alone member once listed]

end Values

/-- The pass over the query that a statement is. -/
theorem Emits.query {q : Query} {before : Query Nat} {tree : Statement Nat} {sealed : Sealed}
    (emits : g.Emits bound supply (.query q) tree sealed)
    (numbered : (Statement.query q).number.1 = .query before) :
    ∃ after d, tree = .query after ∧ (g.sealQuery before).Gives (draftOf bound supply) after d ∧
      sealed.aliases = d.aliases := by
  obtain ⟨d, pass, rfl⟩ := emits.pass
  rw [numbered] at pass
  simp only [sealTree, Seal.gives_bind, Seal.gives_pure] at pass
  obtain ⟨after, _, run, rfl, rfl⟩ := pass
  exact ⟨after, _, rfl, run, rfl⟩

end Sealing

open Sealing (draftOf)

theorem selects_sealed_alone (active : ActiveColumns) (handler : Handler) (options : SealOptions)
    (resultMaps : List ResultMap) (bound : BoundStatement) (q : Query) (supply own : Supply)
    (fresh : supply.Fresh bound) (freshOwn : own.Fresh bound) :
    ∃ before, (Statement.query q).number.1 = .query before ∧
      Sealing.SealsApart ⟨active, handler, options, resultMaps, bound.mappings⟩ bound supply own q
        before (sealBound active handler options resultMaps bound (.query q) supply).1 := by
  have numbered : (Statement.query q).number.1 = .query (q.walk numbering 0).1 := rfl
  generalize (q.walk numbering 0).1 = before at numbered
  generalize same : Sealing.mk active handler options resultMaps bound.mappings = g
  have inputs : g.inputs = bound.mappings := same ▸ rfl
  have apart : g.Apart (draftOf bound own) := fun i later m input =>
    freshOwn.roots i later m (inputs ▸ input)
  have poised (counted : (Statement.query q).countAnonymous = bound.mappings.length) :
      g.Poised bound (g.selectsRequests before.selects) (draftOf bound supply) := by
    have start := Sealing.poised_start (t := .query q) inputs counted fun i later m input =>
      fresh.roots i later m (inputs ▸ input)
    rwa [numbered] at start
  have runs (sealed : Sealed) (succeeded :
      (sealBound active handler options resultMaps bound (.query q) supply).1 = .ok sealed) :
      ∃ after d, g.Emits bound supply (.query q) (.query after) sealed ∧
        (g.sealQuery before).Gives (draftOf bound supply) after d ∧ sealed.aliases = d.aliases := by
    obtain ⟨tree, emits⟩ := exists_emits succeeded
    rw [same] at emits
    obtain ⟨after, d, rfl, run, told⟩ := emits.query numbered
    exact ⟨after, d, emits, run, told⟩
  refine ⟨before, numbered, ?_, ?_, ?_, fun outer => ?_, fun s outer d => ?_⟩
  · intro sealed succeeded
    obtain ⟨after, d, emits, run, -⟩ := runs sealed succeeded
    have shape := (Sealing.sealQuery_selectwise before run).imp
      ⟨fun _ => trivial, fun _ => trivial⟩
    have pairs := (List.forall₂_and_left (p := (· ∈ before.selects)) _ _).mpr
      ⟨fun _ => id, Sealing.sealQuery_pairs run⟩
    refine ⟨after, emits, shape, pairs.imp fun s s' ⟨member, pair⟩ => ?_⟩
    obtain ⟨q', d', alone⟩ :=
      Sealing.alone_succeeds (poised emits.counted.symm) inputs apart run member
    obtain rfl := pair alone
    exact ⟨d', alone, fun n listed =>
      emits.outputValue_alone numbered fresh freshOwn inputs member alone listed⟩
  · intro sealed succeeded
    obtain ⟨after, d, emits, run, told⟩ := runs sealed succeeded
    rw [told]
    refine ⟨?_, fun key property => Sealing.told_alone run fun s member =>
      Sealing.alone_succeeds (poised emits.counted.symm) inputs apart run member⟩
    rw [Sealing.records_sealQuery _ _ _ _ run]
    exact nodup_foldl_recordIn List.nodup_nil
  · intro counted e
    refine (sealBound_fails counted).trans ?_
    rw [same, numbered]
    refine (Sealing.sealQuery_asks before).fails_iff.symm.trans ?_
    exact Sealing.sealQuery_fails_alone (poised counted) inputs apart
  · rw [Sealing.scopedQuery_eq]
    rfl
  · rw [Sealing.scopedSelect_eq]
    rfl

namespace Sample

/-- Both tables have a column of this name. -/
def sharedActive : ActiveColumns :=
  ⟨["users", "accounts"], [⟨"users", "ssn", "ssn_enc", "ssn_idx"⟩,
    ⟨"accounts", "ssn", "acc_enc", "acc_idx"⟩]⟩

def matching (table : String) : Query :=
  select ⟨.column [] (.bare "ssn"), none⟩ ⟨.table [.bare table] false [] none, []⟩
    (some (.binary (.column [] (.bare "ssn")) .equal .anonymous))

/-- `WITH u AS (SELECT ssn FROM users WHERE ssn = ?) SELECT ssn FROM accounts WHERE ssn = ?`. -/
def sharedRead : Query :=
  ⟨false, [⟨.bare "u", [], none, matching "users"⟩], (matching "accounts").body, []⟩

def sharedSealed : Sealed :=
  ⟨⟨"WITH u AS (SELECT ssn_enc AS ssn FROM users WHERE ssn_idx = ?) " ++
      "SELECT acc_enc AS ssn FROM accounts WHERE acc_idx = ?",
    [.text "x", .text "xx"], bound.object, [("x", .string "~7"), ("xx", .string "~a@x")]⟩,
    [("ssn", "ssn")]⟩

/-- Other names than a pass over the whole query draws. -/
def laterSupply : Supply := { supply with named := 2 }

theorem laterSupply_fresh : laterSupply.Fresh bound where
  distinct := fun i j _ _ => fresh.distinct i j (Nat.zero_le i) (Nat.zero_le j)
  plain := fun i _ => fresh.plain i (Nat.zero_le i)
  additional := fun i _ => fresh.additional i (Nat.zero_le i)
  roots := fun i _ => fresh.roots i (Nat.zero_le i)

end Sample

open Sample in
theorem selects_sealed_alone_shared : supply.Fresh bound ∧ laterSupply.Fresh bound ∧
    (sealBound sharedActive handler ⟨true, false⟩ [] bound (.query sharedRead) supply).1 =
      .ok sharedSealed ∧
    ∃ before, (Statement.query sharedRead).number.1 = .query before ∧
      Sealing.SealsApart ⟨sharedActive, handler, ⟨true, false⟩, [], bound.mappings⟩ bound supply
        laterSupply sharedRead before (.ok sharedSealed) := by
  have succeeded : (sealBound sharedActive handler ⟨true, false⟩ [] bound (.query sharedRead)
      supply).1 = .ok sharedSealed := by
    with_unfolding_all rfl
  refine ⟨fresh, laterSupply_fresh, succeeded, ?_⟩
  rw [← succeeded]
  exact selects_sealed_alone sharedActive handler ⟨true, false⟩ [] bound sharedRead supply
    laterSupply fresh laterSupply_fresh

end SealedColumns
