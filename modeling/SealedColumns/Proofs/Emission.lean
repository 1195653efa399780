import SealedColumns.Proofs.Alignment
import SealedColumns.Proofs.Expansion
import SealedColumns.Proofs.Selects
import SealedColumns.Proofs.Splice

/-!
The tree that a pass over a statement writes: what sealing makes of a whole statement, put together
from what it makes of its parts.
-/
namespace SealedColumns

open Sql

namespace Sealing

inductive TreeSealed (g : Sealing) : Statement Nat → Statement Nat → Prop where
  | insert {x x' : Insert Nat} : g.InsertSealed x x' → TreeSealed g (.insert x) (.insert x')
  | update {x : Update Nat} {as : List (Assignment Nat)} {filter : Option (Expr Nat)} :
      g.AssignmentsSealed x.assignments as → g.FilterSealed [] x.filter filter →
        TreeSealed g (.update x) (.update { x with assignments := as, filter := filter })
  | delete {x : Delete Nat} {filter : Option (Expr Nat)} : g.FilterSealed [] x.filter filter →
      TreeSealed g (.delete x) (.delete { x with filter := filter })
  | query {q q' : Query Nat} : Selectwise g.ProjectionSealed g.SelectFilterSealed q q' →
      TreeSealed g (.query q) (.query q')
  | explain {words : String} {t : Statement Nat} :
      TreeSealed g (.explain words t) (.explain words t)
  | other {tables : List Name} {frame : List Piece} {operands : List (Expr Nat)}
      {q : Option (Query Nat)} :
      TreeSealed g (.other tables frame operands q) (.other tables frame operands q)

variable {g : Sealing} {d d' : Draft}

theorem sealTree_sealed {t t' : Statement Nat} (run : (g.sealTree t).Gives d t' d') :
    g.TreeSealed t t' := by
  cases t with
  | insert x =>
    simp only [sealTree, Seal.gives_bind, Seal.gives_pure] at run
    obtain ⟨x', _, first, rfl, rfl⟩ := run
    exact .insert (sealInsert_sealed first)
  | update x =>
    simp only [sealTree, Seal.gives_bind, Seal.gives_pure] at run
    obtain ⟨as, _, first, filter, _, second, rfl, rfl⟩ := run
    exact .update (sealAssignments_sealed first) (sealFilter_sealed second)
  | delete x =>
    simp only [sealTree, Seal.gives_bind, Seal.gives_pure] at run
    obtain ⟨filter, _, first, rfl, rfl⟩ := run
    exact .delete (sealFilter_sealed first)
  | query q =>
    simp only [sealTree, Seal.gives_bind, Seal.gives_pure] at run
    obtain ⟨q', _, first, rfl, rfl⟩ := run
    exact .query (sealQuery_selectwise q first)
  | explain words t =>
    simp only [sealTree, Seal.gives_bind, Seal.gives_note, Seal.gives_pure] at run
    obtain ⟨_, _, _, rfl, _⟩ := run
    exact .explain
  | other tables frame operands q =>
    simp only [sealTree, Seal.gives_bind, Seal.gives_note, Seal.gives_pure] at run
    obtain ⟨_, _, _, rfl, _⟩ := run
    exact .other

/-- A pass over a statement writes this tree and gives this result. -/
structure Emits (g : Sealing) (bound : BoundStatement) (supply : Supply) (t : Statement)
    (tree : Statement Nat) (sealed : Sealed) : Prop where
  counted : bound.mappings.length = t.countAnonymous
  pass : ∃ d, (g.sealTree t.number.1).Gives (draftOf bound supply) tree d ∧
    sealed = ⟨d.parameters.toBound tree.restore.render, d.aliases⟩

namespace Emits

variable {bound : BoundStatement} {supply : Supply} {t : Statement} {tree tree' : Statement Nat}
  {sealed sealed' : Sealed}

theorem treeSealed (emits : Emits g bound supply t tree sealed) : g.TreeSealed t.number.1 tree := by
  obtain ⟨d, pass, -⟩ := emits.pass
  exact sealTree_sealed pass

theorem text (emits : Emits g bound supply t tree sealed) :
    sealed.bound.sql = tree.restore.render := by
  obtain ⟨d, -, rfl⟩ := emits.pass
  rfl

theorem unique (emits : Emits g bound supply t tree sealed)
    (emits' : Emits g bound supply t tree' sealed') : tree' = tree := by
  obtain ⟨d, pass, -⟩ := emits.pass
  obtain ⟨d', pass', -⟩ := emits'.pass
  rw [Seal.Gives] at pass pass'
  rw [pass] at pass'
  cases pass'
  rfl

/-- The emitted tree has the placeholders that the ledger has slots for. -/
theorem ledger (emits : Emits g bound supply t tree sealed) (fresh : supply.Fresh bound)
    (inputs : g.inputs = bound.mappings) :
    ∃ d part, Ledger g bound supply (g.acts t.number.1) d part ∧
      tree.origins = d.parameters.origins ∧
      sealed = ⟨d.parameters.toBound tree.restore.render, d.aliases⟩ := by
  obtain ⟨d, pass, same⟩ := emits.pass
  obtain ⟨part, ledger⟩ := sealTree_ledger fresh inputs pass
  obtain ⟨aligned, once⟩ := Stage.initial_aligned supply emits.counted
  exact ⟨d, part, ledger, ((sealTree_reaches pass).aligned aligned once).1, same⟩

end Emits

/-- The value that the `n`-th placeholder of the input is bound to. -/
def inputValue (bound : BoundStatement) (n : Nat) : Option Json :=
  bound.mappings[n]?.map (Parameters.ofBound bound).valueOf

/-- The value that the same placeholder is bound to in the emitted statement: by the mapping at the
position at which it stands among the placeholders. -/
def outputValue (tree : Statement Nat) (final : BoundStatement) (n : Nat) : Option Json :=
  final.mappings[tree.origins.idxOf (some n)]?.map (Parameters.ofBound final).valueOf

/-- The mapping at the position of the slot that has the ordinal. -/
theorem mapping_at {tree : Statement Nat} {p : Parameters} (aligned : tree.origins = p.origins)
    {n : Nat} {before behind : List Slot} {slot : Slot} (split : p.Splits n before slot behind) :
    p.mappings[tree.origins.idxOf (some n)]? = some slot.mapping := by
  have absent : some n ∉ before.map Slot.origin := fun member => by
    obtain ⟨s, earlier, bears⟩ := List.mem_map.mp member
    exact split.first s earlier bears
  have position : tree.origins.idxOf (some n) = before.length := by
    rw [aligned, Parameters.origins, split.slots, List.map_append, List.map_cons, split.origin,
      List.idxOf_append_of_notMem absent, List.idxOf_cons_self, List.length_map, Nat.add_zero]
  rw [position, Parameters.mappings, split.slots, List.map_append, ← List.length_map Slot.mapping,
    List.getElem?_append_right (Nat.le_refl _), Nat.sub_self]
  rfl

/-- A slot with an ordinal stands in the part of that ordinal. -/
theorem Ledger.mem_part {bound : BoundStatement} {supply : Supply} {done : List Act}
    {part : Nat → List Slot} (ledger : Ledger g bound supply done d part) {n : Nat} {slot : Slot}
    (member : slot ∈ d.parameters.slots) (bears : slot.origin = some n) : slot ∈ part n := by
  rw [ledger.slots] at member
  obtain ⟨j, listed, here⟩ := List.mem_flatMap.mp member
  have inside : j < bound.mappings.length := List.mem_range.mp listed
  have known : bound.mappings[j]? = some bound.mappings[j] := List.getElem?_eq_getElem inside
  obtain rfl := (ledger.parts j _ known).origin here bears
  exact here

theorem Part.of_compared {bound : BoundStatement} {supply : Supply} {done : List Act} {n : Nat}
    {m : ParameterMapping} {slots : List Slot} (stands : Part g bound supply done d n m slots)
    (compared : .compare n ∈ done) (unwritten : .write n ∉ done) {text : String}
    (plain : ((Parameters.ofBound bound).valueOf m).plain? = some (some text)) :
    ∃ name index, slots = [⟨.text name, some n⟩] ∧ g.handler.index text = .ok index ∧
      Holds supply d name (.string index) := by
  cases stands with
  | kept other _ => exact absurd compared other
  | null _ none =>
    rw [plain] at none
    cases none
  | indexed _ plain' indexed holds =>
    rw [plain] at plain'
    cases plain'
    exact ⟨_, _, rfl, indexed, holds⟩
  | pair written => exact absurd written unwritten

/-- A single slot in the place of a placeholder is the one that has its ordinal. -/
theorem Ledger.splits_single {bound : BoundStatement} {supply : Supply} {done : List Act}
    {part : Nat → List Slot} (ledger : Ledger g bound supply done d part) {n : Nat}
    {m : ParameterMapping} {slot : Slot} (known : bound.mappings[n]? = some m)
    (single : part n = [slot]) (bears : slot.origin = some n) :
    ∃ before behind, d.parameters.Splits n before slot behind := by
  have found : some n ∈ d.parameters.origins := by
    refine List.mem_map.mpr ⟨slot, ?_, bears⟩
    have inside : n < bound.mappings.length := (List.getElem?_eq_some_iff.mp known).1
    rw [ledger.slots]
    exact List.mem_flatMap.mpr ⟨n, List.mem_range.mpr inside, by simp [single]⟩
  obtain ⟨before, slot', behind, split⟩ := Parameters.exists_splits found
  have member : slot' ∈ part n := ledger.mem_part (by simp [split.slots]) split.origin
  rw [single] at member
  obtain rfl := List.mem_singleton.mp member
  exact ⟨before, behind, split⟩

/-- A placeholder with a single slot in its place is bound by the mapping of that slot. -/
theorem Ledger.outputValue_single {bound : BoundStatement} {supply : Supply} {done : List Act}
    {part : Nat → List Slot} (ledger : Ledger g bound supply done d part) {tree : Statement Nat}
    (aligned : tree.origins = d.parameters.origins) {n : Nat} {m : ParameterMapping} {slot : Slot}
    (known : bound.mappings[n]? = some m) (single : part n = [slot])
    (bears : slot.origin = some n) (sql : String) :
    outputValue tree (d.parameters.toBound sql) n =
      some ((Parameters.ofBound (d.parameters.toBound sql)).valueOf slot.mapping) := by
  obtain ⟨before, behind, split⟩ := ledger.splits_single known single bears
  simp only [outputValue, Parameters.toBound]
  rw [mapping_at aligned split]
  rfl

section Values

variable {bound : BoundStatement} {supply : Supply} {t : Statement} {tree : Statement Nat}
  {sealed : Sealed} (emits : Emits g bound supply t tree sealed) (fresh : supply.Fresh bound)
  (inputs : g.inputs = bound.mappings) {n : Nat}

include emits fresh inputs

/-- A placeholder that is compared and has a text is bound to the index of that text. -/
theorem Emits.outputValue_indexed (compared : n ∈ g.compared t.number.1) {value : Json}
    (input : inputValue bound n = some value) {text : String}
    (plain : value.plain? = some (some text)) :
    ∃ index, g.handler.index text = .ok index ∧
      outputValue tree sealed.bound n = some (.string index) := by
  obtain ⟨d, part, ledger, aligned, rfl⟩ := emits.ledger fresh inputs
  obtain ⟨m, known, rfl⟩ := Option.map_eq_some_iff.mp input
  have unwritten : Act.write n ∉ g.acts t.number.1 := fun written =>
    written_compared_apart t.once_number (write_mem_acts.mp written) compared
  obtain ⟨name, index, slots, indexed, holds⟩ :=
    (ledger.parts n m known).of_compared (compare_mem_acts.mpr compared) unwritten plain
  refine ⟨index, indexed, ?_⟩
  rw [ledger.outputValue_single aligned known slots rfl]
  exact congrArg some (holds.reads fresh _)

/-- A placeholder that is neither written nor compared is bound to the value that it had. -/
theorem Emits.outputValue_kept (unwritten : n ∉ g.written t.number.1)
    (uncompared : n ∉ g.compared t.number.1) {value : Json}
    (input : inputValue bound n = some value) : outputValue tree sealed.bound n = some value := by
  obtain ⟨d, part, ledger, aligned, rfl⟩ := emits.ledger fresh inputs
  obtain ⟨m, known, rfl⟩ := Option.map_eq_some_iff.mp input
  have untouched : ∀ a ∈ g.acts t.number.1, a.ordinal ≠ n := by
    rintro a acted rfl
    cases a with
    | write n => exact unwritten (write_mem_acts.mp acted)
    | compare n => exact uncompared (compare_mem_acts.mp acted)
  rw [ledger.outputValue_single aligned known ((ledger.parts n m known).alone untouched) rfl]
  exact congrArg some (ledger.reads fresh (List.mem_of_getElem? known))

end Values

end Sealing

/-- A pass that succeeds emits a tree. -/
theorem exists_emits {active : ActiveColumns} {handler : Handler} {options : SealOptions}
    {resultMaps : List ResultMap} {bound : BoundStatement} {t : Statement} {supply : Supply}
    {sealed : Sealed}
    (succeeded : (sealBound active handler options resultMaps bound t supply).1 = .ok sealed) :
    ∃ tree, Sealing.Emits ⟨active, handler, options, resultMaps, bound.mappings⟩ bound supply t tree
      sealed := by
  obtain ⟨d, run⟩ := sealBound_ok.mp succeeded
  obtain ⟨counted, tree, pass, _, rfl⟩ := Sealing.gives_sealStatement.mp run
  exact ⟨tree, counted.symm, d, pass, rfl⟩

theorem Seal.run_bind_error {α β : Type} {m : Seal α} {f : α → Seal β} {d d' : Draft} {e : Error}
    (run : m.run d = (.error e, d')) : (m >>= f).run d = (.error e, d') := by
  change ExceptT.bindCont f (m.run d).1 (m.run d).2 = _
  rw [run]
  rfl

section Ends

open Sealing (draftOf)

variable {active : ActiveColumns} {handler : Handler} {options : SealOptions}
  {resultMaps : List ResultMap} {bound : BoundStatement} {t : Statement} {supply : Supply}

theorem sealBound_miscounted (miscounted : t.countAnonymous ≠ bound.mappings.length) :
    (sealBound active handler options resultMaps bound t supply).1 =
      .error (.sealing (.placeholderCount t.countAnonymous bound.mappings.length)) := by
  unfold sealBound Sealing.sealStatement
  simp only [t.count_number, if_pos (bne_iff_ne.mpr miscounted)]
  rfl

/-- With as many placeholders as mappings, a pass fails where the pass over its tree does. -/
theorem sealBound_error (counted : t.countAnonymous = bound.mappings.length) {e : Error} {d : Draft}
    (run : (Sealing.sealTree ⟨active, handler, options, resultMaps, bound.mappings⟩
      t.number.1).run (draftOf bound supply) = (.error e, d)) :
    (sealBound active handler options resultMaps bound t supply).1 = .error e := by
  have same : ¬ (t.countAnonymous != bound.mappings.length) = true := by simp [counted]
  have whole : (Sealing.sealStatement ⟨active, handler, options, resultMaps, bound.mappings⟩ t).run
      (draftOf bound supply) = (.error e, d) := by
    unfold Sealing.sealStatement
    simp only [t.count_number, if_neg same]
    exact Seal.run_bind_error run
  rw [draftOf] at whole
  simp only [sealBound, whole]

/-- And it succeeds where the pass over its tree does: the placeholders that are left match the
slots. -/
theorem sealBound_emits (counted : t.countAnonymous = bound.mappings.length)
    {tree : Statement Nat} {d : Draft}
    (run : (Sealing.sealTree ⟨active, handler, options, resultMaps, bound.mappings⟩
      t.number.1).Gives (draftOf bound supply) tree d) :
    (sealBound active handler options resultMaps bound t supply).1 =
      .ok ⟨d.parameters.toBound tree.restore.render, d.aliases⟩ := by
  obtain ⟨aligned, once⟩ := Stage.initial_aligned supply counted.symm
  have final : tree.origins = d.parameters.origins :=
    ((Sealing.sealTree_reaches run).aligned aligned once).1
  have left : tree.restore.countAnonymous = d.parameters.length := by
    rw [Statement.countAnonymous_restore, final, Parameters.origins, List.length_map]
    rfl
  exact sealBound_ok.mpr ⟨d, Sealing.gives_sealStatement.mpr ⟨counted, tree, run, left, rfl⟩⟩

end Ends

end SealedColumns
