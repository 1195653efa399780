import SealedColumns.Proofs.Ledger
import SealedColumns.Proofs.Whole

/-!
The mappings of a sealed statement are a local expansion of the ones it came with: in the place of
each mapping stands what the plan says of its ordinal, with values made from what it read at first.
-/
namespace SealedColumns

open Sql

namespace Sealing

/-- A name that nothing in the input bears. -/
structure New (bound : BoundStatement) (name : String) : Prop where
  additional : bound.additional.get? name = none
  property : ∀ m ∈ bound.mappings, m.property ≠ name

/-- The mappings in the place of the mapping `m` with the ordinal `n`: itself, if it is neither
written nor compared or if a null is compared; a new one that holds the index, if it is compared; a
new pair, behind the old mapping where the source column is written, if it is written. -/
inductive Expanded (g : Sealing) (bound final : BoundStatement) (t : Statement Nat) (n : Nat)
    (m : ParameterMapping) : List ParameterMapping → Prop where
  | kept : n ∉ g.written t → n ∉ g.compared t → Expanded g bound final t n m [m]
  | null : n ∈ g.compared t → n ∉ g.written t →
      ((Parameters.ofBound bound).valueOf m).plain? = some none → Expanded g bound final t n m [m]
  | indexed {name text index : String} : n ∈ g.compared t → n ∉ g.written t →
      ((Parameters.ofBound bound).valueOf m).plain? = some (some text) →
      g.handler.index text = .ok index → New bound name →
      (Parameters.ofBound final).valueOf (.text name) = .string index →
        Expanded g bound final t n m [.text name]
  | pair {target index : String} {plain : Option String} {cipher key : Json} : n ∈ g.written t →
      n ∉ g.compared t → ((Parameters.ofBound bound).valueOf m).plain? = some plain →
      g.Pair plain cipher key → New bound target → New bound index → target ≠ index →
      (Parameters.ofBound final).valueOf (.text target) = cipher →
      (Parameters.ofBound final).valueOf (.text index) = key →
        Expanded g bound final t n m
          ((if g.options.writeSource then [m] else []) ++ [.text target, .text index])

variable {g : Sealing} {bound : BoundStatement} {supply : Supply} {d d' : Draft}

def draftOf (bound : BoundStatement) (supply : Supply) : Draft :=
  ⟨Parameters.ofBound bound, [], [], supply⟩

def singlePart (bound : BoundStatement) (n : Nat) : List Slot :=
  (bound.mappings[n]?.map fun m => ⟨m, some n⟩).toList

theorem flatMap_singlePart (bound : BoundStatement) :
    (Parameters.ofBound bound).slots =
      (List.range bound.mappings.length).flatMap (singlePart bound) := by
  have shifted : ∀ (ms : List ParameterMapping) (first : Nat),
      (ms.zipIdx first).map (fun pair => (⟨pair.1, some pair.2⟩ : Slot)) =
        (List.range' first ms.length).flatMap fun n =>
          (ms[n - first]?.map fun m => (⟨m, some n⟩ : Slot)).toList := by
    intro ms
    induction ms with
    | nil => exact fun _ => rfl
    | cons m ms ih =>
      intro first
      rw [List.zipIdx_cons, List.map_cons, ih, List.length_cons, List.range'_succ,
        List.flatMap_cons]
      simp only [Nat.sub_self, List.getElem?_cons_zero, Option.map_some, Option.toList_some,
        List.singleton_append]
      congr 1
      apply List.flatMap_congr
      intro n member
      have later := (List.mem_range'_1.mp member).1
      have split : n - first = (n - (first + 1)) + 1 := by omega
      rw [split, List.getElem?_cons_succ]
  rw [List.range_eq_range']
  exact shifted bound.mappings 0

theorem ledger_start (fresh : supply.Fresh bound) :
    Ledger g bound supply [] (draftOf bound supply) (singlePart bound) := by
  refine ⟨flatMap_singlePart bound, ?_, rfl, rfl, Nat.le_refl _, fun _ => .inl rfl, ?_⟩
  · intro n m input
    simp only [singlePart, input, Option.map_some, Option.toList_some]
    exact .kept List.not_mem_nil List.not_mem_nil
  · intro i later
    have undrawn : ¬ i < (draftOf bound supply).supply.named := Nat.not_lt.mpr later
    rw [if_neg undrawn]
    refine List.count_eq_zero.mpr fun member => ?_
    obtain ⟨m, input, same⟩ := List.mem_map.mp member
    refine fresh.property later ?_ same
    obtain ⟨s, slot, rfl⟩ := List.mem_map.mp input
    obtain ⟨⟨m, n⟩, place, rfl⟩ := List.mem_map.mp slot
    exact List.fst_mem_of_mem_zipIdx place

theorem mem_writing {ns : List Nat} {a : Act} :
    a ∈ writing ns ↔ ∃ n ∈ ns, a = .write n := by
  simp [writing, eq_comm]

theorem mem_comparing {ns : List Nat} {a : Act} :
    a ∈ comparing ns ↔ ∃ n ∈ ns, a = .compare n := by
  simp [comparing, eq_comm]

theorem write_mem_acts {t : Statement Nat} {n : Nat} : .write n ∈ g.acts t ↔ n ∈ g.written t := by
  simp [acts, mem_writing, mem_comparing]

theorem compare_mem_acts {t : Statement Nat} {n : Nat} :
    .compare n ∈ g.acts t ↔ n ∈ g.compared t := by
  simp [acts, mem_writing, mem_comparing]

theorem ordinals_acts (t : Statement Nat) :
    (g.acts t).map Act.ordinal = g.written t ++ g.compared t := by
  simp [acts, writing, comparing, Function.comp_def, Act.ordinal]

/-- A pass over a numbered tree ends with a ledger of all its acts. -/
theorem sealTree_ledger {t : Statement} {tree : Statement Nat} (fresh : supply.Fresh bound)
    (inputs : g.inputs = bound.mappings)
    (pass : (g.sealTree t.number.1).Gives (draftOf bound supply) tree d) :
    ∃ part, Ledger g bound supply (g.acts t.number.1) d part := by
  have once := t.once_number
  obtain ⟨-, trace⟩ := sealTree_trace once pass
  have single : (([] ++ g.acts t.number.1).map Act.ordinal).Nodup := by
    rw [List.nil_append, ordinals_acts]
    exact (within_acts _).nodup once
  obtain ⟨part, ledger⟩ := (ledger_start fresh).trace trace fresh inputs single
  exact ⟨part, ledger⟩

theorem New.of_holds (fresh : supply.Fresh bound) {name : String} {value : Json}
    (holds : Holds supply d name value) : New bound name := by
  obtain ⟨i, later, -, rfl⟩ := holds.drawn
  exact ⟨fresh.additional i later, fun m input => fresh.property later input⟩

theorem Holds.reads (fresh : supply.Fresh bound) {name : String} {value : Json} (sql : String)
    (holds : Holds supply d name value) :
    (Parameters.ofBound (d.parameters.toBound sql)).valueOf (.text name) = value := by
  obtain ⟨i, later, -, rfl⟩ := holds.drawn
  exact Parameters.valueOf_text (fresh.plain i later) holds.held

theorem written_compared_apart {t : Statement Nat} (once : Once t.origins) {n : Nat}
    (written : n ∈ g.written t) : n ∉ g.compared t := by
  have single := (within_acts (g := g) t).nodup once
  exact fun compared => (List.nodup_append.mp single).2.2 n written n compared rfl

theorem Part.expanded (fresh : supply.Fresh bound) {t : Statement Nat} (once : Once t.origins)
    {n : Nat} {m : ParameterMapping} {slots : List Slot} (sql : String)
    (stands : Part g bound supply (g.acts t) d n m slots) :
    Expanded g bound (d.parameters.toBound sql) t n m (slots.map Slot.mapping) := by
  cases stands with
  | kept compared written =>
    exact .kept (written ∘ write_mem_acts.mpr) (compared ∘ compare_mem_acts.mpr)
  | null acted plain =>
    have compared := compare_mem_acts.mp acted
    exact .null compared (fun written => written_compared_apart once written compared) plain
  | indexed acted plain index holds =>
    have compared := compare_mem_acts.mp acted
    exact .indexed compared (fun written => written_compared_apart once written compared) plain
      index (.of_holds fresh holds) (holds.reads fresh sql)
  | pair acted plain pair differ target index =>
    have written := write_mem_acts.mp acted
    have expanded : Expanded g bound (d.parameters.toBound sql) t n m _ :=
      .pair written (written_compared_apart once written) plain pair (.of_holds fresh target)
        (.of_holds fresh index) differ (target.reads fresh sql) (index.reads fresh sql)
    cases keep : g.options.writeSource <;> simpa [pairSlots, keep] using expanded

/-- What a pass over a numbered tree leaves of the mappings, ordinal by ordinal. -/
theorem sealTree_mappings {t : Statement} {tree : Statement Nat} (fresh : supply.Fresh bound)
    (inputs : g.inputs = bound.mappings)
    (pass : (g.sealTree t.number.1).Gives (draftOf bound supply) tree d) (sql : String) :
    ∃ part : Nat → List ParameterMapping,
      d.parameters.mappings = (List.range bound.mappings.length).flatMap part ∧
      (∀ n m, bound.mappings[n]? = some m →
        Expanded g bound (d.parameters.toBound sql) t.number.1 n m (part n)) ∧
      ∀ m ∈ bound.mappings, d.parameters.valueOf m = (Parameters.ofBound bound).valueOf m := by
  obtain ⟨part, ledger⟩ := sealTree_ledger fresh inputs pass
  refine ⟨fun n => (part n).map Slot.mapping, ?_, ?_, ?_⟩
  · simp only [Parameters.mappings, ledger.slots, List.map_flatMap]
  · intro n m input
    exact (ledger.parts n m input).expanded fresh t.once_number sql
  · intro m input
    exact ledger.reads fresh input

end Sealing

/-- The mappings of a sealed statement are the expansions of the mappings of the input, one after
the other; and these go on reading what they read. -/
theorem mappings_expanded (active : ActiveColumns) (handler : Handler) (options : SealOptions)
    (resultMaps : List ResultMap) (bound : BoundStatement) (statement : Statement)
    (supply : Supply) (fresh : supply.Fresh bound) (sealed : Sealed)
    (succeeded :
      (sealBound active handler options resultMaps bound statement supply).1 = .ok sealed) :
    ∃ part : Nat → List ParameterMapping,
      sealed.bound.mappings = (List.range bound.mappings.length).flatMap part ∧
      (∀ n m, bound.mappings[n]? = some m →
        Sealing.Expanded ⟨active, handler, options, resultMaps, bound.mappings⟩ bound sealed.bound
          statement.number.1 n m (part n)) ∧
      ∀ m ∈ bound.mappings,
        (Parameters.ofBound sealed.bound).valueOf m = (Parameters.ofBound bound).valueOf m := by
  obtain ⟨d, run⟩ := sealBound_ok.mp succeeded
  obtain ⟨_, tree, pass, _, rfl⟩ := Sealing.gives_sealStatement.mp run
  exact Sealing.sealTree_mappings fresh rfl pass _

namespace Sample

theorem toList_name (i : Nat) : (supply.name i).toList = List.replicate (i + 1) 'x' :=
  String.toList_ofList

theorem fresh : supply.Fresh bound := by
  refine ⟨?_, ?_, fun _ _ => rfl, ?_⟩
  · intro i j _ _ same
    have letters := congrArg (List.length ∘ String.toList) same
    simpa [toList_name] using letters
  · intro i _ c member
    rw [toList_name] at member
    rw [List.eq_of_mem_replicate member]
    rfl
  · intro i _ m input same
    have roots : ∀ m ∈ bound.mappings, 'x' ∉ (Property.splitRoot m.property).1.toList := by decide
    apply roots m input
    rw [same, toList_name]
    exact List.mem_cons_self

end Sample

open Sample in
theorem mappings_expanded_insert : supply.Fresh bound ∧
    (sealBound active handler ⟨true, false⟩ [] bound statement supply).1 = .ok result ∧
    ∃ part : Nat → List ParameterMapping,
      result.bound.mappings = part 0 ++ part 1 ∧
      Sealing.Expanded sealing bound result.bound statement.number.1 1 (.ofProperty "email")
        (part 1) := by
  obtain ⟨part, mappings, expanded, -⟩ := mappings_expanded active handler ⟨true, false⟩ [] bound
    statement supply fresh result seals
  refine ⟨fresh, seals, part, ?_, expanded 1 _ rfl⟩
  simpa [bound, List.range_succ] using mappings

end SealedColumns
