import SealedColumns.Proofs.Expansion
import SealedColumns.Proofs.Reliable
import SealedColumns.Proofs.Store.Mirror

/-!
What the placeholders of a sealed statement are bound to: in the place of each value of the input
stands the value itself, its index, or its ciphertext and its index.
-/
namespace SealedColumns.Store

open Sealing

def valueAt (bound : BoundStatement) (n : Nat) : Json :=
  (bound.mappings[n]?.map (Parameters.ofBound bound).valueOf).getD .null

theorem valuesOf_eq (bound : BoundStatement) :
    valuesOf bound = (List.range bound.mappings.length).map (valueAt bound) := by
  apply List.ext_getElem
  · simp [valuesOf]
  · intro n inside _
    rw [valuesOf, List.length_map] at inside
    simp [valuesOf, valueAt, inside]

theorem valueAt_eq {bound : BoundStatement} {n : Nat} {m : ParameterMapping}
    (input : bound.mappings[n]? = some m) :
    valueAt bound n = (Parameters.ofBound bound).valueOf m := by
  rw [valueAt, input, Option.map_some, Option.getD_some]

/-- The values that the slots in the place of one mapping read. -/
def valuesAt (d : Draft) (part : Nat → List Slot) (n : Nat) : List Json :=
  (part n).map fun s => d.parameters.valueOf s.mapping

variable {g : Sealing} {bound : BoundStatement} {supply : Supply} {done : List Act} {d : Draft}
  {part : Nat → List Slot} {n : Nat}

theorem valuesOf_toBound (ledger : Ledger g bound supply done d part) (sql : String) :
    valuesOf (d.parameters.toBound sql) =
      (List.range bound.mappings.length).flatMap (valuesAt d part) := by
  have reads : valuesOf (d.parameters.toBound sql) =
      d.parameters.slots.map fun s => d.parameters.valueOf s.mapping := List.map_map
  rw [reads, ledger.slots, List.map_flatMap]
  rfl

theorem values_kept (ledger : Ledger g bound supply done d part) (fresh : supply.Fresh bound)
    (inside : n < bound.mappings.length) (untouched : ∀ a ∈ done, a.ordinal ≠ n) :
    valuesAt d part n = [valueAt bound n] := by
  have input := List.getElem?_eq_getElem inside
  rw [valueAt_eq input, valuesAt, (ledger.parts n _ input).alone untouched, List.map_singleton,
    ledger.reads fresh (List.mem_of_getElem? input)]

theorem values_written (ledger : Ledger g bound supply done d part) (fresh : supply.Fresh bound)
    (replaces : g.options.writeSource = false) (inside : n < bound.mappings.length)
    (written : .write n ∈ done) (only : .compare n ∉ done) :
    ∃ plain cipher key, (valueAt bound n).plain? = some plain ∧ g.Pair plain cipher key ∧
      valuesAt d part n = [cipher, key] := by
  have input := List.getElem?_eq_getElem inside
  have stands := ledger.parts n _ input
  rw [valueAt_eq input, valuesAt]
  generalize part n = slots at stands ⊢
  cases stands with
  | kept _ unwritten => exact absurd written unwritten
  | null compared => exact absurd compared only
  | indexed compared => exact absurd compared only
  | @pair _ _ plain cipher key _ read pair _ target index =>
    refine ⟨plain, cipher, key, read, pair, ?_⟩
    simp only [pairSlots, replaces, Bool.false_eq_true, if_false, List.nil_append, List.map_cons,
      List.map_nil]
    have first : d.parameters.valueOf (.text _) = cipher := target.reads fresh ""
    have second : d.parameters.valueOf (.text _) = key := index.reads fresh ""
    rw [first, second]

theorem values_compared (ledger : Ledger g bound supply done d part) (fresh : supply.Fresh bound)
    (inside : n < bound.mappings.length) (compared : .compare n ∈ done)
    (only : .write n ∉ done) :
    ∃ key, valuesAt d part n = [key] ∧
      (((valueAt bound n).plain? = some none ∧ key = valueAt bound n) ∨
        ∃ text index, (valueAt bound n).plain? = some (some text) ∧
          g.handler.index text = .ok index ∧ key = .string index) := by
  have input := List.getElem?_eq_getElem inside
  have stands := ledger.parts n _ input
  rw [valueAt_eq input, valuesAt]
  generalize part n = slots at stands ⊢
  cases stands with
  | kept uncompared => exact absurd compared uncompared
  | null _ read =>
    rw [List.map_singleton, ledger.reads fresh (List.mem_of_getElem? input)]
    exact ⟨_, rfl, .inl ⟨read, rfl⟩⟩
  | @indexed _ text index _ read indexed held =>
    have new : d.parameters.valueOf (.text _) = .string index := held.reads fresh ""
    rw [List.map_singleton, new]
    exact ⟨_, rfl, .inr ⟨text, index, read, indexed, rfl⟩⟩
  | pair written => exact absurd written only

end SealedColumns.Store
