import SealedColumns.Proofs.Failure

/-!
Which error a pass over a query fails with: the fault of the first value that it is to index, in the
order of the selects. What such a value fails with is a matter of its text and the handler alone.
-/
namespace SealedColumns

open Sql Seal

namespace Sealing

/-- The error that indexing the value of a request fails with. -/
def indexFault? (handler : Handler) (bound : BoundStatement) (r : Request) : Option Error :=
  match operandPlain? bound r.operand with
  | none => some (.sealing .structuredValue)
  | some none => none
  | some (some text) =>
    match handler.index text with
    | .ok _ => none
    | .error cause => some (.handler cause)

/-- The fault of the first value that the filter of a select has indexed. -/
def selectFault? (g : Sealing) (bound : BoundStatement) (s : Select Nat) : Option Error :=
  (g.filterRequests (scopeOf s.sources) s.filter).findSome? (indexFault? g.handler bound)

theorem indexFault?_eq_some {handler : Handler} {bound : BoundStatement} {operand : Operand}
    {s : Supply} {e : Error} : indexFault? handler bound (.index operand) = some e ↔
      Fault handler bound s (.index operand) e := by
  unfold indexFault?
  constructor
  · intro fault
    split at fault
    · rename_i unread
      obtain rfl := Option.some.inj fault
      exact .structured unread
    · cases fault
    · rename_i text read
      split at fault
      · cases fault
      · rename_i cause failed
        obtain rfl := Option.some.inj fault
        exact .refused read (.index failed)
  · rintro (unread | ⟨read, refuses⟩)
    · rw [unread]
    · cases refuses with
      | index failed => simp only [read, failed]

/-- Filters have their values indexed; nothing is paired. -/
theorem exists_index_of_mem {g : Sealing} {selects : List (Select Nat)} {r : Request}
    (asked : r ∈ g.selectsRequests selects) : ∃ operand, r = .index operand := by
  obtain ⟨s, -, asked⟩ := List.mem_flatMap.mp asked
  unfold filterRequests at asked
  split at asked
  · cases asked
  · split at asked
    · obtain ⟨v, -, same⟩ := List.mem_filterMap.mp asked
      obtain ⟨operand, -, rfl⟩ := Option.map_eq_some_iff.mp same
      exact ⟨operand, rfl⟩
    · cases asked

variable {g : Sealing} {bound : BoundStatement} {d : Draft} {e : Error}

theorem Asks.fails_iff {α : Type} {m : Seal α} {rs : List Request} (asks : g.Asks m rs) :
    m.Fails d e ↔ (forM rs g.perform).Fails d e := by
  have agree := asks d d ⟨rfl, rfl⟩
  unfold Fails
  generalize m.run d = r, (forM rs g.perform).run d = r' at agree
  cases agree with
  | fails e' d₁ d₂ =>
    constructor <;> rintro ⟨_, ⟨⟩⟩
    · exact ⟨d₂, rfl⟩
    · exact ⟨d₁, rfl⟩
  | gives _ _ => constructor <;> rintro ⟨_, ⟨⟩⟩

section Rows

variable {rs : List Request}

theorem Poised.index_fails_iff {operand : Operand}
    (poised : g.Poised bound (.index operand :: rs) d) (inputs : g.inputs = bound.mappings) :
    (g.perform (.index operand)).Fails d e ↔
      indexFault? g.handler bound (.index operand) = some e := by
  constructor
  · exact fun fails => indexFault?_eq_some.mpr (poised.fault inputs fails)
  · intro fault
    rcases fails_or_gives (g.perform (.index operand)) d with ⟨e', fails⟩ | ⟨_, _, gives⟩
    · have fault' := indexFault?_eq_some.mpr (poised.fault inputs fails)
      obtain rfl := Option.some.inj (fault.symm.trans fault')
      exact fails
    · exact absurd (indexFault?_eq_some.mp fault) ((poised.performed inputs gives).sound e)

/-- A row that only indexes fails with the first fault, and only with a fault. -/
theorem Poised.fails_iff (poised : g.Poised bound rs d) (inputs : g.inputs = bound.mappings)
    (indexes : ∀ r ∈ rs, ∃ operand, r = .index operand) :
    (forM rs g.perform).Fails d e ↔ rs.findSome? (indexFault? g.handler bound) = some e := by
  induction rs generalizing d with
  | nil => exact iff_of_false (fails_pure _ _ _) (by simp)
  | cons r rs ih =>
    obtain ⟨operand, rfl⟩ := indexes r List.mem_cons_self
    have later := fun r listed => indexes r (List.mem_cons_of_mem _ listed)
    have here := fun e => poised.index_fails_iff inputs (e := e)
    rw [fails_forM_cons, here]
    rcases fails_or_gives (g.perform (.index operand)) d with ⟨e', fails⟩ | ⟨_, d', gives⟩
    · rw [List.findSome?_cons, (here e').mp fails]
      refine or_iff_left fun ⟨_, _, gives, _⟩ => gives.not_fails _ fails
    · have sound : indexFault? g.handler bound (.index operand) = none :=
        Option.eq_none_iff_forall_ne_some.mpr fun e' fault =>
          gives.not_fails _ ((here e').mpr fault)
      rw [List.findSome?_cons, sound, ← ih (poised.next (poised.performed inputs gives)) later]
      simp only [reduceCtorEq, false_or]
      constructor
      · rintro ⟨_, _, gives', fails⟩
        rw [Gives, gives] at gives'
        cases gives'
        exact fails
      · exact fun fails => ⟨_, _, gives, fails⟩

/-- What holds of a row at the start of a pass holds of a part of it at the start of another. -/
theorem Poised.part {supply own : Supply} {part : List Request}
    (poised : g.Poised bound rs (draftOf bound supply)) (sublist : part.Sublist rs)
    (apart : g.Apart (draftOf bound own)) : g.Poised bound part (draftOf bound own) where
  apart := apart
  reads := fun _ _ => rfl
  inside := fun n asked => poised.inside n ((sublist.filterMap _).subset asked)
  found := fun n asked => poised.found n ((sublist.filterMap _).subset asked)
  single := poised.single.sublist (sublist.filterMap _)

end Rows

theorem findSome?_selectsRequests (selects : List (Select Nat)) :
    (g.selectsRequests selects).findSome? (indexFault? g.handler bound) =
      selects.findSome? (g.selectFault? bound) := by
  induction selects with
  | nil => rfl
  | cons s ss ih =>
    have split : g.selectsRequests (s :: ss) =
        g.filterRequests (scopeOf s.sources) s.filter ++ g.selectsRequests ss := rfl
    rw [split, List.findSome?_append, ih, List.findSome?_cons, selectFault?]
    split <;> rename_i found <;> rw [found] <;> rfl

/-- A query fails with the first fault of its selects. -/
theorem sealQuery_fails_iff {q : Query Nat}
    (poised : g.Poised bound (g.selectsRequests q.selects) d) (inputs : g.inputs = bound.mappings) :
    (g.sealQuery q).Fails d e ↔ q.selects.findSome? (g.selectFault? bound) = some e := by
  rw [(sealQuery_asks q).fails_iff, poised.fails_iff inputs fun _ => exists_index_of_mem,
    findSome?_selectsRequests]

end Sealing

end SealedColumns
