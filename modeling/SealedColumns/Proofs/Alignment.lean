import SealedColumns.Proofs.Whole

/-!
Placeholders and parameters stay aligned. Between any two calls of a pass the placeholders of the
tree that count and the slots of the parameters have the same origins at the same positions, so at
the end the placeholder at each position is bound by the mapping at that position.
-/
namespace SealedColumns

open Sql

/-- What a pass works on between two calls. -/
structure Stage where
  tree : Statement Nat
  draft : Draft

namespace Stage

/-- The placeholders that count, in visit order, have the origins of the slots. -/
def Aligned (s : Stage) : Prop := s.tree.origins = s.draft.parameters.origins

/-- The stage at which a pass over a bound statement starts. -/
def initial (statement : Statement) (bound : BoundStatement) (supply : Supply) : Stage :=
  ⟨statement.number.1, Parameters.ofBound bound, [], [], supply⟩

end Stage

namespace Sealing

variable (g : Sealing)

/-- One completed call of a pass: what an INSERT writes, the assignments and the filter of an
UPDATE, the filter of a DELETE, or a query. A statement of another kind is only noted. -/
inductive Call : Stage → Stage → Prop where
  | insert {x x' : Insert Nat} {d d' : Draft} :
      (g.sealInsert x).Gives d x' d' → Call ⟨.insert x, d⟩ ⟨.insert x', d'⟩
  | assignments {x : Update Nat} {as : List (Assignment Nat)} {d d' : Draft} :
      (g.sealAssignments x.assignments).Gives d as d' →
        Call ⟨.update x, d⟩ ⟨.update { x with assignments := as }, d'⟩
  | updateFilter {x : Update Nat} {filter : Option (Expr Nat)} {d d' : Draft} :
      (g.sealFilter [] x.filter).Gives d filter d' →
        Call ⟨.update x, d⟩ ⟨.update { x with filter := filter }, d'⟩
  | deleteFilter {x : Delete Nat} {filter : Option (Expr Nat)} {d d' : Draft} :
      (g.sealFilter [] x.filter).Gives d filter d' →
        Call ⟨.delete x, d⟩ ⟨.delete { x with filter := filter }, d'⟩
  | query {x x' : Query Nat} {d d' : Draft} :
      (g.sealQuery x).Gives d x' d' → Call ⟨.query x, d⟩ ⟨.query x', d'⟩
  | note {t : Statement Nat} {event : Event} {d : Draft} :
      Call ⟨t, d⟩ ⟨t, { d with log := d.log ++ [event] }⟩

/-- The stages that completed calls lead to. -/
inductive Reaches (start : Stage) : Stage → Prop where
  | start : Reaches start start
  | call {s s' : Stage} : Reaches start s → Call g s s' → Reaches start s'

variable {g}

theorem writing_written (ns : List Nat) : (writing ns).filterMap Act.written? = ns := by
  induction ns with
  | nil => rfl
  | cons n ns ih => exact congrArg _ ih

theorem comparing_written (ns : List Nat) : (comparing ns).filterMap Act.written? = [] := by
  induction ns with
  | nil => rfl
  | cons n ns ih => exact ih

theorem aligned_write {t t' : Statement Nat} {d d' : Draft} {ns : List Nat}
    (aligned : Stage.Aligned ⟨t, d⟩) (once : Once t.origins) (inside : Within ns t.origins)
    (origins : t'.origins = expandOrigins g.options.writeSource ns t.origins)
    (trace : g.Trace (writing ns) d d') : Stage.Aligned ⟨t', d'⟩ ∧ Once t'.origins := by
  refine ⟨?_, origins ▸ once.expand⟩
  simp only [Stage.Aligned] at aligned ⊢
  have single : ((writing ns).filterMap Act.written?).Nodup := by
    rw [writing_written]
    exact inside.nodup once
  rw [trace.origins (aligned ▸ once) single, writing_written, ← aligned, origins]

theorem aligned_compare {t t' : Statement Nat} {d d' : Draft} {ns : List Nat}
    (aligned : Stage.Aligned ⟨t, d⟩) (once : Once t.origins) (origins : t'.origins = t.origins)
    (trace : g.Trace (comparing ns) d d') : Stage.Aligned ⟨t', d'⟩ ∧ Once t'.origins := by
  refine ⟨?_, origins ▸ once⟩
  simp only [Stage.Aligned] at aligned ⊢
  have single : ((comparing ns).filterMap Act.written?).Nodup := by
    rw [comparing_written]
    exact List.nodup_nil
  rw [trace.origins (aligned ▸ once) single, comparing_written, expandOrigins_none, ← aligned,
    origins]

/-- What one call preserves. -/
theorem Call.aligned {s s' : Stage} (call : Call g s s') (aligned : s.Aligned)
    (once : Once s.tree.origins) : s'.Aligned ∧ Once s'.tree.origins := by
  cases call with
  | insert run =>
    obtain ⟨origins, trace⟩ := sealInsert_trace once run
    exact aligned_write aligned once (within_insertWritten _) origins trace
  | @assignments x as d d' run =>
    have around := x.origins_eq
    have inside := once
    simp only [Statement.origins, Statement.visits, around] at inside
    obtain ⟨origins, trace⟩ := sealAssignments_trace inside.right.left run
    refine aligned_write aligned once ?_ ?_ trace
    -- The assignments stand between parts of the statement that no write touches.
    · intro n
      have bound := within_assignmentsWritten (g := g) x.assignments n
      simp only [Statement.origins, Statement.visits, around, List.count_append]
      omega
    · simp only [Statement.origins, Statement.visits, Update.origins_eq]
      rw [expandOrigins_within _ inside (within_assignmentsWritten _), origins]
  | updateFilter run =>
    obtain ⟨origins, trace⟩ := sealFilter_trace run
    refine aligned_compare aligned once ?_ trace
    simp only [Statement.origins, Statement.visits, Update.origins_eq, origins]
  | deleteFilter run =>
    obtain ⟨origins, trace⟩ := sealFilter_trace run
    refine aligned_compare aligned once ?_ trace
    simp only [Statement.origins, Statement.visits, Delete.origins_eq, origins]
  | query run =>
    obtain ⟨origins, trace⟩ := sealQuery_trace _ run
    exact aligned_compare aligned once origins trace
  | note => exact ⟨aligned, once⟩

/-- What a whole run of calls preserves. -/
theorem Reaches.aligned {start s : Stage} (reached : g.Reaches start s) (aligned : start.Aligned)
    (once : Once start.tree.origins) : s.Aligned ∧ Once s.tree.origins := by
  induction reached with
  | start => exact ⟨aligned, once⟩
  | call _ call ih => exact call.aligned ih.1 ih.2

/-- A pass over a tree is a run of calls. -/
theorem sealTree_reaches {t t' : Statement Nat} {d d' : Draft}
    (run : (g.sealTree t).Gives d t' d') :
    g.Reaches ⟨t, d⟩ ⟨t', d'⟩ := by
  cases t with
  | insert x =>
    simp only [sealTree, Seal.gives_bind, Seal.gives_pure] at run
    obtain ⟨x', _, first, rfl, rfl⟩ := run
    exact .call .start (.insert first)
  | update x =>
    simp only [sealTree, Seal.gives_bind, Seal.gives_pure] at run
    obtain ⟨assignments, _, first, filter, _, second, rfl, rfl⟩ := run
    have written : g.Reaches ⟨.update x, d⟩ _ := .call .start (.assignments first)
    exact .call written (.updateFilter second)
  | delete x =>
    simp only [sealTree, Seal.gives_bind, Seal.gives_pure] at run
    obtain ⟨filter, _, first, rfl, rfl⟩ := run
    exact .call .start (.deleteFilter first)
  | query x =>
    simp only [sealTree, Seal.gives_bind, Seal.gives_pure] at run
    obtain ⟨x', _, first, rfl, rfl⟩ := run
    exact .call .start (.query first)
  | _ =>
    simp only [sealTree, Seal.gives_bind, Seal.gives_note, Seal.gives_pure] at run
    obtain ⟨_, _, rfl, rfl, rfl⟩ := run
    exact .call .start .note

end Sealing

theorem Parameters.origins_ofBound (bound : BoundStatement) :
    (Parameters.ofBound bound).origins = (List.range bound.mappings.length).map some := by
  simp only [Parameters.origins, Parameters.ofBound, List.map_map]
  rw [List.range_eq_range', ← List.zipIdx_map_snd 0 bound.mappings, List.map_map]
  rfl

/-- Numbering aligns a statement with as many mappings as it has placeholders. -/
theorem Stage.initial_aligned {statement : Statement} {bound : BoundStatement} (supply : Supply)
    (counted : bound.mappings.length = statement.countAnonymous) :
    (initial statement bound supply).Aligned ∧
      Once (initial statement bound supply).tree.origins := by
  refine ⟨?_, statement.once_number⟩
  simp only [Aligned, initial]
  rw [statement.origins_number, Parameters.origins_ofBound, counted]

/-- Every stage of a pass is aligned, and a pass that succeeds ends at a stage whose tree it writes
and whose slots carry, position by position, the mappings of the result and the origins of the
placeholders of the tree; restored, those are anonymous and as many as the mappings. -/
theorem placeholders_aligned (active : ActiveColumns) (handler : Handler) (options : SealOptions)
    (resultMaps : List ResultMap) (bound : BoundStatement) (statement : Statement)
    (supply : Supply) (counted : bound.mappings.length = statement.countAnonymous) :
    (∀ s, Sealing.Reaches ⟨active, handler, options, resultMaps, bound.mappings⟩
      (.initial statement bound supply) s → s.Aligned) ∧
    ∀ sealed, (sealBound active handler options resultMaps bound statement supply).1 = .ok sealed →
      ∃ s, Sealing.Reaches ⟨active, handler, options, resultMaps, bound.mappings⟩
          (.initial statement bound supply) s ∧
        sealed.bound.sql = s.tree.restore.render ∧
        s.draft.parameters.slots = List.zipWith Slot.mk sealed.bound.mappings s.tree.origins ∧
        s.tree.restore.origins = List.replicate sealed.bound.mappings.length none := by
  obtain ⟨aligned, once⟩ := Stage.initial_aligned supply counted
  refine ⟨fun s reached => (reached.aligned aligned once).1, ?_⟩
  intro sealed succeeded
  obtain ⟨d', run⟩ := sealBound_ok.mp succeeded
  obtain ⟨_, tree, pass, _, rfl⟩ := Sealing.gives_sealStatement.mp run
  have reached := Sealing.sealTree_reaches pass
  have final : tree.origins = d'.parameters.origins := (reached.aligned aligned once).1
  refine ⟨_, reached, rfl, ?_, ?_⟩
  · simp only [final, Parameters.origins, Parameters.toBound, Parameters.mappings,
      List.zipWith_map, List.zipWith_self]
    exact (List.map_id _).symm
  · simp only [Statement.origins_restore, final, Parameters.origins, Parameters.toBound,
      Parameters.mappings, List.map_map, List.length_map]
    exact List.map_const'

open Sample in
theorem placeholders_aligned_insert : bound.mappings.length = statement.countAnonymous ∧
    (∀ s, Sealing.Reaches sealing (.initial statement bound supply) s → s.Aligned) ∧
    ∃ s, Sealing.Reaches sealing (.initial statement bound supply) s ∧
      result.bound.sql = s.tree.restore.render ∧ s.tree.restore.origins = [none, none, none] := by
  have counted : bound.mappings.length = statement.countAnonymous := rfl
  obtain ⟨aligned, final⟩ :=
    placeholders_aligned active handler ⟨true, false⟩ [] bound statement supply counted
  obtain ⟨s, reached, text, -, origins⟩ := final result seals
  exact ⟨counted, aligned, s, reached, text, origins⟩

end SealedColumns
