import SealedColumns.Proofs.Compare
import SealedColumns.Proofs.Write

/-!
Sealing of a whole statement is one trace: first the writes, then the comparisons, no placeholder
twice; and the placeholders of the tree change as the origins of the parameters do.
-/
namespace SealedColumns

open Sql

namespace Sealing

variable {g : Sealing} {d d' : Draft}

/-- All acts of sealing a statement, in order. -/
def acts (g : Sealing) (t : Statement Nat) : List Act :=
  writing (g.written t) ++ comparing (g.compared t)

end Sealing

theorem Sql.Statement.once_number (t : Statement) : Once t.number.1.origins := by
  rw [t.origins_number]
  exact once_range _

theorem Sql.Update.origins_eq (x : Update Nat) :
    originsOf x.visits = originsOf x.target.visits ++
      (originsOf (visitsAssignments x.assignments) ++ (originsOf (visitsSources x.sources) ++
        (originsOf (visitsOption x.filter) ++ originsOf (visitsAll x.clauses)))) := by
  cases x
  simp only [Update.visits, originsOf_append, List.append_assoc]

theorem Sql.Delete.origins_eq (x : Delete Nat) :
    originsOf x.visits =
      originsOf (visitsSources x.sources ++ visitsSources x.usingSources) ++
        (originsOf (visitsOption x.filter) ++ originsOf (visitsAll x.clauses)) := by
  cases x
  simp only [Delete.visits, originsOf_append, List.append_assoc]

namespace Sealing

variable {g : Sealing} {d d' : Draft}

/-- No placeholder is both written and compared, and none twice. -/
theorem within_acts (t : Statement Nat) :
    Within (g.written t ++ g.compared t) t.origins := by
  intro n
  unfold Statement.origins
  rw [List.count_append]
  cases t with
  | insert x => exact within_insertWritten x n
  | update x =>
    have assignments := within_assignmentsWritten (g := g) x.assignments n
    have filter := g.count_filterCompared n [] x.filter
    simp only [written, compared, Statement.visits, Update.origins_eq, List.count_append]
    omega
  | delete x =>
    have filter := g.count_filterCompared n [] x.filter
    simp only [written, compared, Statement.visits, Delete.origins_eq, List.count_append,
      List.count_nil]
    omega
  | query x =>
    have inner := g.count_queryCompared n x
    simp only [written, compared, Statement.visits, List.count_nil]
    omega
  | _ => exact Nat.zero_le _

theorem sealTree_trace {t t' : Statement Nat} (once : Once t.origins)
    (run : (g.sealTree t).Gives d t' d') :
    t'.origins = expandOrigins g.options.writeSource (g.written t) t.origins ∧
      g.Trace (g.acts t) d d' := by
  unfold Statement.origins at once ⊢
  cases t with
  | insert x =>
    simp only [sealTree, Seal.gives_bind, Seal.gives_pure] at run
    obtain ⟨x', _, first, rfl, rfl⟩ := run
    obtain ⟨origins, trace⟩ := sealInsert_trace once first
    refine ⟨origins, ?_⟩
    simpa [acts, written, compared, comparing] using trace
  | update x =>
    simp only [sealTree, Seal.gives_bind, Seal.gives_pure] at run
    obtain ⟨assignments, _, first, filter, _, second, rfl, rfl⟩ := run
    simp only [Statement.visits, Update.origins_eq] at once ⊢
    obtain ⟨origins, trace⟩ := sealAssignments_trace once.right.left first
    obtain ⟨originsFilter, rest⟩ := sealFilter_trace second
    rw [written, expandOrigins_within _ once (within_assignmentsWritten _), origins, originsFilter]
    exact ⟨rfl, trace.append rest⟩
  | delete x =>
    simp only [sealTree, Seal.gives_bind, Seal.gives_pure] at run
    obtain ⟨filter, _, first, rfl, rfl⟩ := run
    obtain ⟨originsFilter, trace⟩ := sealFilter_trace first
    simp only [Statement.visits, Delete.origins_eq, written, expandOrigins_none, originsFilter]
    exact ⟨trivial, trace⟩
  | query x =>
    simp only [sealTree, Seal.gives_bind, Seal.gives_pure] at run
    obtain ⟨x', _, first, rfl, rfl⟩ := run
    obtain ⟨origins, trace⟩ := sealQuery_trace x first
    simp only [written, expandOrigins_none]
    exact ⟨origins, trace⟩
  | _ =>
    simp only [sealTree, Seal.gives_bind, Seal.gives_note, Seal.gives_pure] at run
    obtain ⟨_, _, rfl, rfl, rfl⟩ := run
    exact ⟨expandOrigins_none.symm, .still rfl (.refl _)⟩

/-- A pass over a statement succeeds exactly if the placeholders match the mappings before and
behind the pass over its tree. -/
theorem gives_sealStatement {t : Statement} {sealed : Sealed} :
    (g.sealStatement t).Gives d sealed d' ↔
      t.countAnonymous = g.inputs.length ∧
        ∃ tree, (g.sealTree t.number.1).Gives d tree d' ∧
          tree.restore.countAnonymous = d'.parameters.length ∧
            sealed = ⟨d'.parameters.toBound tree.restore.render, d'.aliases⟩ := by
  unfold sealStatement
  simp only [t.count_number, bne_iff_ne, ne_eq, ite_not]
  constructor
  · intro run
    split at run
    · rename_i counted
      simp only [Seal.gives_bind, Seal.gives_get] at run
      obtain ⟨tree, _, first, _, _, ⟨rfl, rfl⟩, run⟩ := run
      split at run
      · rename_i left
        rw [Seal.gives_pure] at run
        obtain ⟨rfl, rfl⟩ := run
        exact ⟨counted, tree, first, left, rfl⟩
      · exact absurd run (Seal.gives_fail _ _ _ _)
    · exact absurd run (Seal.gives_fail _ _ _ _)
  · rintro ⟨counted, tree, first, left, rfl⟩
    simp only [if_pos counted, Seal.gives_bind, Seal.gives_get]
    refine ⟨tree, d', first, d', d', ⟨rfl, rfl⟩, ?_⟩
    simp [left]

end Sealing

theorem sealBound_gives {active : ActiveColumns} {handler : Handler} {options : SealOptions}
    {resultMaps : List ResultMap} {bound : BoundStatement} {t : Statement} {supply : Supply}
    {sealed : Sealed} {d : Draft}
    (run : (Sealing.sealStatement ⟨active, handler, options, resultMaps, bound.mappings⟩ t).Gives
      ⟨Parameters.ofBound bound, [], [], supply⟩ sealed d) :
    sealBound active handler options resultMaps bound t supply = (.ok sealed, d.log, d.supply) := by
  rw [Seal.Gives] at run
  simp only [sealBound, run]

/-- A pass over a bound statement succeeds exactly if its run does. -/
theorem sealBound_ok {active : ActiveColumns} {handler : Handler} {options : SealOptions}
    {resultMaps : List ResultMap} {bound : BoundStatement} {t : Statement} {supply : Supply}
    {sealed : Sealed} :
    (sealBound active handler options resultMaps bound t supply).1 = .ok sealed ↔
      ∃ d', (Sealing.sealStatement ⟨active, handler, options, resultMaps, bound.mappings⟩ t).Gives
        ⟨Parameters.ofBound bound, [], [], supply⟩ sealed d' := by
  constructor
  · intro succeeded
    exact ⟨_, Prod.ext succeeded rfl⟩
  · rintro ⟨d', run⟩
    rw [sealBound_gives run]

/-! A statement that theorems about whole passes are applied to. -/

namespace Sample

def handler : Handler where
  encrypt plain supply := (.ok ("#" ++ plain), supply)
  decrypt cipher := .ok (String.ofList (cipher.toList.drop 1))
  index plain := .ok ("~" ++ plain)

def supply : Supply :=
  .ofStreams (fun _ => 0) fun i => String.ofList (List.replicate (i + 1) 'x')

def active : ActiveColumns := ⟨["users"], [⟨"users", "email", "email_enc", "email_idx"⟩]⟩

def statement : Statement :=
  .insert ⟨⟨false, none, none, false, false, true, false⟩, [.bare "users"], none,
    [.bare "id", .bare "email"], some ⟨false, [], .values false [[.anonymous, .anonymous]], []⟩,
    [], none, .none, [], none, []⟩

def bound : BoundStatement :=
  ⟨"INSERT INTO users (id, email) VALUES (?, ?)", [.ofProperty "id", .ofProperty "email"],
    .object [("email", .string "a@x"), ("id", .string "7")], []⟩

def sealing : Sealing := ⟨active, handler, ⟨true, false⟩, [], bound.mappings⟩

def result : Sealed :=
  ⟨⟨"INSERT INTO users (id, email_enc, email_idx) VALUES (?, ?, ?)",
    [.ofProperty "id", .text "x", .text "xx"], bound.object,
    [("x", .string "#a@x"), ("xx", .string "~a@x")]⟩, []⟩

theorem seals :
    (sealBound active handler ⟨true, false⟩ [] bound statement supply).1 = .ok result := by
  rfl

end Sample

end SealedColumns
