import Mathlib.Data.List.Basic
import SealedColumns.Proofs.Reading
import SealedColumns.Proofs.Trace

/-!
The ledger of a pass: which slots stand in the place of each mapping of the input, and what the new
names hold. An act rewrites the part of its ordinal and leaves all others.
-/
namespace SealedColumns

/-- The names that a supply still gives are distinct and plain, and nothing bears them: no
additional parameter, and no root of a property. -/
structure Supply.Fresh (supply : Supply) (bound : BoundStatement) : Prop where
  distinct : ∀ i j, supply.named ≤ i → supply.named ≤ j → supply.name i = supply.name j → i = j
  plain : ∀ i, supply.named ≤ i → ∀ c ∈ (supply.name i).toList, Property.isSeparator c = false
  additional : ∀ i, supply.named ≤ i → bound.additional.get? (supply.name i) = none
  roots : ∀ i, supply.named ≤ i → ∀ m ∈ bound.mappings,
    (Property.splitRoot m.property).1 ≠ supply.name i

namespace Supply

variable {supply : Supply} {bound : BoundStatement}

theorem Fresh.property (fresh : supply.Fresh bound) {i : Nat} (later : supply.named ≤ i)
    {m : ParameterMapping} (input : m ∈ bound.mappings) : m.property ≠ supply.name i := by
  intro same
  apply fresh.roots i later m input
  rw [same, Property.splitRoot_plain (fresh.plain i later)]

end Supply

namespace Sealing

/-- A name drawn from the supply since the start that holds a value. -/
structure Holds (supply : Supply) (d : Draft) (name : String) (value : Json) : Prop where
  drawn : ∃ i, supply.named ≤ i ∧ i < d.supply.named ∧ name = supply.name i
  held : d.parameters.additional.get? name = some value

/-- The slots in the place of the mapping `m` with the ordinal `n`, after some acts. All values come
from what `m` read at the start. -/
inductive Part (g : Sealing) (bound : BoundStatement) (supply : Supply) (done : List Act)
    (d : Draft) (n : Nat) (m : ParameterMapping) : List Slot → Prop where
  | kept : .compare n ∉ done → .write n ∉ done → Part g bound supply done d n m [⟨m, some n⟩]
  | null : .compare n ∈ done → ((Parameters.ofBound bound).valueOf m).plain? = some none →
      Part g bound supply done d n m [⟨m, some n⟩]
  | indexed {name text index : String} : .compare n ∈ done →
      ((Parameters.ofBound bound).valueOf m).plain? = some (some text) →
      g.handler.index text = .ok index → Holds supply d name (.string index) →
        Part g bound supply done d n m [⟨.text name, some n⟩]
  | pair {target index : String} {plain : Option String} {cipher key : Json} : .write n ∈ done →
      ((Parameters.ofBound bound).valueOf m).plain? = some plain → g.Pair plain cipher key →
      target ≠ index → Holds supply d target cipher → Holds supply d index key →
        Part g bound supply done d n m (g.pairSlots ⟨m, some n⟩ target index)

/-- The state of the parameters after some acts, part by part. -/
structure Ledger (g : Sealing) (bound : BoundStatement) (supply : Supply) (done : List Act)
    (d : Draft) (part : Nat → List Slot) : Prop where
  slots : d.parameters.slots = (List.range bound.mappings.length).flatMap part
  parts : ∀ n m, bound.mappings[n]? = some m → Part g bound supply done d n m (part n)
  object : d.parameters.object = bound.object
  names : d.supply.name = supply.name
  named : supply.named ≤ d.supply.named
  additional : ∀ key, d.parameters.additional.get? key = bound.additional.get? key ∨
    ∃ i, supply.named ≤ i ∧ i < d.supply.named ∧ key = supply.name i
  tally : ∀ i, supply.named ≤ i →
    (d.parameters.mappings.map ParameterMapping.property).count (supply.name i) =
      if i < d.supply.named then 1 else 0

variable {g : Sealing} {bound : BoundStatement} {supply : Supply} {done : List Act} {d d' : Draft}
  {part : Nat → List Slot} {n : Nat} {m : ParameterMapping}

theorem mem_pairSlots {old s : Slot} {target index : String}
    (member : s ∈ g.pairSlots old target index) :
    s = old ∨ s = ⟨.text target, none⟩ ∨ s = ⟨.text index, none⟩ := by
  unfold pairSlots at member
  split at member
  · simpa using member
  · exact .inr (by simpa using member)

theorem count_pairSlots {old : Slot} {target index name : String}
    (other : old.mapping.property ≠ name) :
    (((g.pairSlots old target index).map Slot.mapping).map ParameterMapping.property).count name =
      [target, index].count name := by
  unfold pairSlots
  split
  · simp [ParameterMapping.text, List.count_cons, other]
  · rfl

theorem Part.origin {slots : List Slot} (stands : Part g bound supply done d n m slots) {s : Slot}
    (member : s ∈ slots) {j : Nat} (bears : s.origin = some j) : j = n := by
  cases stands with
  | kept =>
    obtain rfl := List.mem_singleton.mp member
    exact (Option.some.inj bears).symm
  | null =>
    obtain rfl := List.mem_singleton.mp member
    exact (Option.some.inj bears).symm
  | indexed =>
    obtain rfl := List.mem_singleton.mp member
    exact (Option.some.inj bears).symm
  | pair =>
    rcases mem_pairSlots member with rfl | rfl | rfl
    · exact (Option.some.inj bears).symm
    · cases bears
    · cases bears

theorem Part.alone {slots : List Slot} (stands : Part g bound supply done d n m slots)
    (untouched : ∀ a ∈ done, a.ordinal ≠ n) : slots = [⟨m, some n⟩] := by
  cases stands with
  | kept => rfl
  | null acted => exact absurd rfl (untouched _ acted)
  | indexed acted => exact absurd rfl (untouched _ acted)
  | pair acted => exact absurd rfl (untouched _ acted)

/-- What held a value goes on holding it when other names get theirs. -/
theorem Holds.persists {name : String} {value : Json} (holds : Holds supply d name value)
    (named : d.supply.named ≤ d'.supply.named)
    (kept : d'.parameters.additional.get? name = d.parameters.additional.get? name) :
    Holds supply d' name value := by
  obtain ⟨i, first, last, same⟩ := holds.drawn
  exact ⟨⟨i, first, Nat.lt_of_lt_of_le last named, same⟩, kept.trans holds.held⟩

/-- A part stays as long as its names hold their values and its ordinal is not acted on anew. -/
theorem Part.transport {slots : List Slot} {done' : List Act}
    (stands : Part g bound supply done d n m slots)
    (holds : ∀ {name : String} {value : Json}, Holds supply d name value →
      Holds supply d' name value)
    (same : ∀ b : Act, b.ordinal = n → (b ∈ done' ↔ b ∈ done)) :
    Part g bound supply done' d' n m slots := by
  cases stands with
  | kept compared written =>
    exact .kept (compared ∘ (same (.compare n) rfl).mp) (written ∘ (same (.write n) rfl).mp)
  | null acted plain => exact .null ((same _ rfl).mpr acted) plain
  | indexed acted plain index held =>
    exact .indexed ((same _ rfl).mpr acted) plain index (holds held)
  | pair acted plain pair differ target index =>
    exact .pair ((same _ rfl).mpr acted) plain pair differ (holds target) (holds index)

theorem range_around {k : Nat} (inside : n < k) :
    List.range k = List.range n ++ n :: List.range' (n + 1) (k - (n + 1)) := by
  obtain ⟨more, rfl⟩ := Nat.exists_eq_add_of_lt inside
  have width : n + more + 1 - (n + 1) = more := by omega
  rw [width, List.range_eq_range', List.range_eq_range', ← List.range'_succ, Nat.add_assoc,
    ← List.range'_append_1, Nat.zero_add]

/-- The parts with another one in the place of the part of `n`. -/
def replacePart (part : Nat → List Slot) (n : Nat) (slots : List Slot) : Nat → List Slot :=
  fun j => if j = n then slots else part j

theorem flatMap_replacePart {slots : List Slot} {ns : List Nat} (other : n ∉ ns) :
    ns.flatMap (replacePart part n slots) = ns.flatMap part := by
  apply List.flatMap_congr
  intro j member
  have different : j ≠ n := fun same => other (same ▸ member)
  exact if_neg different

end Sealing

theorem Parameters.Splits.unique {p : Parameters} {n : Nat}
    {before before' behind behind' : List Slot} {slot slot' : Slot}
    (split : p.Splits n before slot behind)
    (split' : p.Splits n before' slot' behind') :
    before = before' ∧ slot = slot' ∧ behind = behind' := by
  have position := split.position?.symm.trans split'.position?
  have same := split.slots.symm.trans split'.slots
  obtain ⟨rfl, rest⟩ := List.append_inj same (Option.some.inj position)
  exact ⟨rfl, (List.cons.inj rest).1, (List.cons.inj rest).2⟩

namespace Sealing

variable {g : Sealing} {bound : BoundStatement} {supply : Supply} {done : List Act} {d d' : Draft}
  {part : Nat → List Slot} {n : Nat} {m : ParameterMapping}

/-- An act that replaces the slot of an untouched ordinal replaces its part. -/
theorem Ledger.replaced (ledger : Ledger g bound supply done d part)
    (input : bound.mappings[n]? = some m) (untouched : ∀ a ∈ done, a.ordinal ≠ n)
    {before behind : List Slot} {slot : Slot} (split : d.parameters.Splits n before slot behind) :
    slot = ⟨m, some n⟩ ∧ ∀ slots, before ++ slots ++ behind =
      (List.range bound.mappings.length).flatMap (replacePart part n slots) := by
  obtain ⟨inside, -⟩ := List.getElem?_eq_some_iff.mp input
  have alone := (ledger.parts n m input).alone untouched
  have apart : ∀ s ∈ (List.range n).flatMap part, s.origin ≠ some n := by
    intro s member bears
    obtain ⟨j, below, here⟩ := List.mem_flatMap.mp member
    have less : j < n := List.mem_range.mp below
    have known : bound.mappings[j]? = some bound.mappings[j] :=
      List.getElem?_eq_getElem (Nat.lt_trans less inside)
    have same := (ledger.parts j _ known).origin here bears
    omega
  have around : d.parameters.Splits n ((List.range n).flatMap part) ⟨m, some n⟩
      ((List.range' (n + 1) (bound.mappings.length - (n + 1))).flatMap part) := by
    refine ⟨?_, rfl, apart⟩
    rw [ledger.slots, range_around inside, List.flatMap_append, List.flatMap_cons, alone]
    rfl
  obtain ⟨rfl, rfl, rfl⟩ := split.unique around
  refine ⟨rfl, fun slots => ?_⟩
  have low : n ∉ List.range n := fun member => Nat.lt_irrefl n (List.mem_range.mp member)
  have high : n ∉ List.range' (n + 1) (bound.mappings.length - (n + 1)) := by
    simp [List.mem_range']
    omega
  rw [range_around inside, List.flatMap_append, List.flatMap_cons, flatMap_replacePart low,
    flatMap_replacePart high, List.append_assoc]
  simp [replacePart]

theorem Ledger.reads (ledger : Ledger g bound supply done d part) (fresh : supply.Fresh bound)
    (input : m ∈ bound.mappings) :
    d.parameters.valueOf m = (Parameters.ofBound bound).valueOf m := by
  apply Parameters.valueOf_congr ledger.object
  rcases ledger.additional (Property.splitRoot m.property).1 with kept | ⟨i, later, -, named⟩
  · exact kept
  · exact absurd named (fresh.roots i later m input)

theorem Ledger.found (ledger : Ledger g bound supply done d part)
    (input : bound.mappings[n]? = some m) (untouched : ∀ a ∈ done, a.ordinal ≠ n) :
    some n ∈ d.parameters.origins := by
  obtain ⟨inside, -⟩ := List.getElem?_eq_some_iff.mp input
  have alone := (ledger.parts n m input).alone untouched
  refine List.mem_map.mpr ⟨⟨m, some n⟩, ?_, rfl⟩
  rw [ledger.slots, List.mem_flatMap]
  exact ⟨n, List.mem_range.mpr inside, by simp [alone]⟩

/-- What an act does to one part it does to the ledger. -/
theorem Ledger.advance {a : Act} {slots : List Slot} (ledger : Ledger g bound supply done d part)
    (fresh : supply.Fresh bound) (input : bound.mappings[a.ordinal]? = some m)
    (untouched : ∀ b ∈ done, b.ordinal ≠ a.ordinal) {before behind : List Slot} {slot : Slot}
    (split : d.parameters.Splits a.ordinal before slot behind)
    (after : d'.parameters.slots = before ++ slots ++ behind)
    (stands : Part g bound supply (done ++ [a]) d' a.ordinal m slots)
    (object : d'.parameters.object = d.parameters.object)
    (names : d'.supply.name = d.supply.name) (named : d.supply.named ≤ d'.supply.named)
    (additional : ∀ key, d'.parameters.additional.get? key = d.parameters.additional.get? key ∨
      ∃ i, d.supply.named ≤ i ∧ i < d'.supply.named ∧ key = supply.name i)
    (tally : ∀ i, supply.named ≤ i →
      ((slots.map Slot.mapping).map ParameterMapping.property).count (supply.name i) =
        if d.supply.named ≤ i ∧ i < d'.supply.named then 1 else 0) :
    Ledger g bound supply (done ++ [a]) d' (replacePart part a.ordinal slots) := by
  obtain ⟨rfl, whole⟩ := ledger.replaced input untouched split
  have old : ∀ i, supply.named ≤ i → i < d.supply.named →
      d'.parameters.additional.get? (supply.name i) =
        d.parameters.additional.get? (supply.name i) := by
    intro i later earlier
    rcases additional (supply.name i) with kept | ⟨j, first, -, same⟩
    · exact kept
    · have := fresh.distinct i j later (Nat.le_trans ledger.named first) same
      omega
  refine ⟨after.trans (whole slots), ?_, object.trans ledger.object, names.trans ledger.names,
    Nat.le_trans ledger.named named, ?_, ?_⟩
  · intro j m' known
    by_cases here : j = a.ordinal
    · subst here
      obtain rfl : m' = m := Option.some.inj (known.symm.trans input)
      rw [replacePart, if_pos rfl]
      exact stands
    -- The names of another part were drawn earlier, so none of the new ones takes their value.
    · rw [replacePart, if_neg here]
      apply (ledger.parts j m' known).transport
      · intro name value held
        obtain ⟨i, first, last, rfl⟩ := held.drawn
        exact held.persists named (old i first last)
      · intro b bears
        have other : b ≠ a := fun same => here (same ▸ bears).symm
        simp [other]
  · intro key
    rcases additional key with kept | ⟨i, first, last, same⟩
    · rw [kept]
      rcases ledger.additional key with kept | ⟨i, first, last, same⟩
      · exact .inl kept
      · exact .inr ⟨i, first, Nat.lt_of_lt_of_le last named, same⟩
    · exact .inr ⟨i, Nat.le_trans ledger.named first, last, same⟩
  -- The slot that goes bears a property of the input, which is no name of the supply.
  · intro i later
    have earlier := ledger.tally i later
    have new := tally i later
    have other := fresh.property later (List.mem_of_getElem? input)
    simp only [Parameters.mappings, split.slots, List.map_append, List.map_cons, List.count_append,
      List.count_cons_of_ne other] at earlier
    simp only [Parameters.mappings, after, List.map_append, List.count_append, new]
    rw [Nat.add_right_comm, earlier]
    by_cases drawn : i < d.supply.named
    · have still : i < d'.supply.named := Nat.lt_of_lt_of_le drawn named
      simp [drawn, still, Nat.not_le.mpr drawn]
    · by_cases now : i < d'.supply.named
      · simp [now, Nat.not_lt.mp drawn, Nat.not_lt.mpr (Nat.not_lt.mp drawn)]
      · simp [drawn, now]

theorem Ledger.name_freshName (ledger : Ledger g bound supply done d part) :
    d.supply.freshName.1 = supply.name d.supply.named := by
  rw [Supply.freshName, ledger.names]

theorem Ledger.compare_null (ledger : Ledger g bound supply done d part)
    (fresh : supply.Fresh bound) (input : bound.mappings[n]? = some m)
    (untouched : ∀ b ∈ done, b.ordinal ≠ n)
    (read : ((Parameters.ofBound bound).valueOf m).plain? = some none) :
    Ledger g bound supply (done ++ [.compare n]) d (replacePart part n [⟨m, some n⟩]) := by
  obtain ⟨before, slot, behind, split⟩ := Parameters.exists_splits (ledger.found input untouched)
  obtain ⟨rfl, -⟩ := ledger.replaced input untouched split
  have acted : Act.compare n ∈ done ++ [.compare n] := List.mem_append_right _ List.mem_cons_self
  apply ledger.advance (a := .compare n) fresh input untouched split _ (.null acted read) rfl rfl
    (Nat.le_refl _) (fun _ => .inl rfl)
  · intro i later
    have other := fresh.property later (List.mem_of_getElem? input)
    have apart : ¬ (d.supply.named ≤ i ∧ i < d.supply.named) := by omega
    simp [other, apart]
  · rw [split.slots, List.append_assoc, List.singleton_append]
    rfl

theorem Ledger.compare_text (ledger : Ledger g bound supply done d part)
    (fresh : supply.Fresh bound) (input : bound.mappings[n]? = some m)
    (untouched : ∀ b ∈ done, b.ordinal ≠ n) {text index : String}
    (read : ((Parameters.ofBound bound).valueOf m).plain? = some (some text))
    (indexed : g.handler.index text = .ok index) (supplied : d'.supply = d.supply.freshName.2)
    {before behind : List Slot} {slot : Slot} (split : d.parameters.Splits n before slot behind)
    (after : d'.parameters = { d.parameters with
      slots := before ++ ⟨.text d.supply.freshName.1, some n⟩ :: behind
      additional := d.parameters.additional.insert d.supply.freshName.1 (.string index) }) :
    Ledger g bound supply (done ++ [.compare n]) d'
      (replacePart part n [⟨.text (supply.name d.supply.named), some n⟩]) := by
  have drawn : d'.supply.named = d.supply.named + 1 := by
    rw [supplied]
    rfl
  rw [ledger.name_freshName] at after
  have acted : Act.compare n ∈ done ++ [.compare n] := List.mem_append_right _ List.mem_cons_self
  have holds : Holds supply d' (supply.name d.supply.named) (.string index) := by
    refine ⟨⟨d.supply.named, ledger.named, by omega, rfl⟩, ?_⟩
    simp only [after, Members.get?_insert, if_true]
  apply ledger.advance (a := .compare n) fresh input untouched split _
    (.indexed acted read indexed holds)
  · rw [after]
  · rw [supplied]
    rfl
  · omega
  · intro key
    simp only [after, Members.get?_insert]
    split
    · rename_i same
      exact .inr ⟨d.supply.named, Nat.le_refl _, by omega, same⟩
    · exact .inl rfl
  · intro i later
    by_cases same : i = d.supply.named
    · subst same
      simp [ParameterMapping.text, drawn]
    · have other : supply.name d.supply.named ≠ supply.name i := fun named =>
        same (fresh.distinct _ _ ledger.named later named).symm
      have apart : ¬ (d.supply.named ≤ i ∧ i < d'.supply.named) := by omega
      simp [ParameterMapping.text, other, apart]
  · simp only [after, List.append_assoc, List.singleton_append]
    rfl

theorem Ledger.write (ledger : Ledger g bound supply done d part)
    (fresh : supply.Fresh bound) (input : bound.mappings[n]? = some m)
    (untouched : ∀ b ∈ done, b.ordinal ≠ n) {plain : Option String} {cipher key : Json}
    (read : ((Parameters.ofBound bound).valueOf m).plain? = some plain)
    (pair : g.Pair plain cipher key)
    (supplied : d.supply.freshName.2.freshName.2.SameNames d'.supply)
    {before behind : List Slot} {slot : Slot} (split : d.parameters.Splits n before slot behind)
    (after : d'.parameters = { d.parameters with
      slots := before ++ g.pairSlots slot d.supply.freshName.1 d.supply.freshName.2.freshName.1 ++
        behind
      additional := (d.parameters.additional.insert d.supply.freshName.1 cipher).insert
        d.supply.freshName.2.freshName.1 key }) :
    Ledger g bound supply (done ++ [.write n]) d' (replacePart part n
      (g.pairSlots ⟨m, some n⟩ (supply.name d.supply.named)
        (supply.name (d.supply.named + 1)))) := by
  have drawn : d'.supply.named = d.supply.named + 2 := supplied.2
  have second : d.supply.freshName.2.freshName.1 = supply.name (d.supply.named + 1) := by
    simp only [Supply.freshName, ledger.names]
  rw [ledger.name_freshName, second] at after
  obtain ⟨rfl, -⟩ := ledger.replaced input untouched split
  have acted : Act.write n ∈ done ++ [.write n] := List.mem_append_right _ List.mem_cons_self
  have differ : supply.name d.supply.named ≠ supply.name (d.supply.named + 1) := fun named => by
    have := fresh.distinct _ _ ledger.named (Nat.le_succ_of_le ledger.named) named
    omega
  have holdsCipher : Holds supply d' (supply.name d.supply.named) cipher := by
    refine ⟨⟨d.supply.named, ledger.named, by omega, rfl⟩, ?_⟩
    simp only [after, Members.get?_insert, if_neg differ, if_true]
  have holdsKey : Holds supply d' (supply.name (d.supply.named + 1)) key := by
    refine ⟨⟨d.supply.named + 1, Nat.le_succ_of_le ledger.named, by omega, rfl⟩, ?_⟩
    simp only [after, Members.get?_insert, if_true]
  apply ledger.advance (a := .write n) fresh input untouched split _
    (.pair acted read pair differ holdsCipher holdsKey)
  · rw [after]
  · exact supplied.1
  · omega
  · intro asked
    simp only [after, Members.get?_insert]
    split
    · rename_i same
      exact .inr ⟨d.supply.named + 1, by omega, by omega, same⟩
    · split
      · rename_i same
        exact .inr ⟨d.supply.named, Nat.le_refl _, by omega, same⟩
      · exact .inl rfl
  · intro i later
    have other := fresh.property later (List.mem_of_getElem? input)
    have known : ∀ j, supply.named ≤ j → (supply.name j = supply.name i ↔ j = i) := fun j start =>
      ⟨fresh.distinct j i start later, congrArg _⟩
    have first := known d.supply.named ledger.named
    have next := known (d.supply.named + 1) (Nat.le_succ_of_le ledger.named)
    rw [count_pairSlots other, drawn]
    simp only [List.count_cons, List.count_nil, beq_iff_eq, first, next]
    split <;> split <;> split <;> omega
  · simp only [after]
    rfl

/-- What one act preserves. -/
theorem Ledger.act {a : Act} (ledger : Ledger g bound supply done d part)
    (fresh : supply.Fresh bound) (inputs : g.inputs = bound.mappings)
    (untouched : ∀ b ∈ done, b.ordinal ≠ a.ordinal) (step : (g.act a).Gives d () d') :
    ∃ part', Ledger g bound supply (done ++ [a]) d' part' := by
  cases a with
  | compare n =>
    obtain ⟨m, plain, input, read, outcome⟩ := compare_cases step
    rw [inputs] at input
    rw [ledger.reads fresh (List.mem_of_getElem? input)] at read
    rcases outcome with ⟨rfl, rfl⟩ | ⟨text, index, rfl, indexed, supplied, outcome⟩
    · exact ⟨_, ledger.compare_null fresh input untouched read⟩
    · rcases outcome with ⟨absent, -⟩ | ⟨before, slot, behind, split, after⟩
      · exact absurd (ledger.found input untouched) absent
      · exact ⟨_, ledger.compare_text fresh input untouched read indexed supplied split after⟩
  | write n =>
    obtain ⟨m, plain, cipher, key, input, read, pair, supplied, before, slot, behind, split,
      after⟩ := write_cases step
    rw [inputs] at input
    rw [ledger.reads fresh (List.mem_of_getElem? input)] at read
    exact ⟨_, ledger.write fresh input untouched read pair supplied split after⟩

theorem Ledger.quiet (ledger : Ledger g bound supply done d part)
    (parameters : d'.parameters = d.parameters) (names : d.supply.SameNames d'.supply) :
    Ledger g bound supply done d' part := by
  refine ⟨by rw [parameters, ledger.slots], ?_, by rw [parameters, ledger.object],
    names.1.trans ledger.names, names.2 ▸ ledger.named, ?_, ?_⟩
  · intro n m input
    apply (ledger.parts n m input).transport _ fun _ _ => Iff.rfl
    intro name value held
    exact held.persists (Nat.le_of_eq names.2.symm) (by rw [parameters])
  · rw [parameters, names.2]
    exact ledger.additional
  · rw [parameters, names.2]
    exact ledger.tally

/-- What a whole run preserves. -/
theorem Ledger.trace {acts : List Act} (run : g.Trace acts d d')
    (ledger : Ledger g bound supply done d part) (fresh : supply.Fresh bound)
    (inputs : g.inputs = bound.mappings) (single : ((done ++ acts).map Act.ordinal).Nodup) :
    ∃ part', Ledger g bound supply (done ++ acts) d' part' := by
  -- On the run; each act finds its ordinal untouched, since none comes twice.
  induction run generalizing done part with
  | done => exact ⟨part, by rwa [List.append_nil]⟩
  | quiet parameters names _ ih => exact ih (ledger.quiet parameters names) single
  | @act a acts d d' d'' step _ ih =>
    have untouched : ∀ b ∈ done, b.ordinal ≠ a.ordinal := by
      rw [List.map_append, List.nodup_append] at single
      intro b member
      exact single.2.2 b.ordinal (List.mem_map_of_mem member) a.ordinal (by simp)
    obtain ⟨part', ledger'⟩ := ledger.act fresh inputs untouched step
    have split : done ++ a :: acts = (done ++ [a]) ++ acts := by simp
    rw [split] at single ⊢
    exact ih ledger' single

end Sealing

end SealedColumns
