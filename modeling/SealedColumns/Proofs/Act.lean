import SealedColumns.Proofs.Run
import SealedColumns.Proofs.Slots
import SealedColumns.Seal.Filter

/-!
The two acts of sealing that change parameters: rebinding the slot of a placeholder that is compared
with a sensitive column, and putting a pair behind the slot of one that is written to a sensitive
column. Every pass is a trace of such acts, between which the parameters stay as they are.
-/
namespace SealedColumns

inductive Act where
  | compare (ordinal : Nat)
  | write (ordinal : Nat)

namespace Sealing

variable (g : Sealing)

def act : Act → Seal Unit
  | .compare n => g.indexPlaceholder n
  | .write n => do
    let plain ← plainText (← g.valueAt n)
    let (target, index) ← g.sealedValues plain
    g.bindPair n target index

/-- What the target and the index column get for a text or for null. -/
inductive Pair : Option String → Json → Json → Prop where
  | null : Pair none .null .null
  | text {plain cipher index : String} (supply : Supply) :
      (g.handler.encrypt plain supply).1 = .ok cipher → g.handler.index plain = .ok index →
        Pair (some plain) (.string cipher) (.string index)

/-- The slots in the place of one that is written: the old one only if the source column stays. -/
def pairSlots (old : Slot) (target index : String) : List Slot :=
  (if g.options.writeSource then [old] else []) ++
    [⟨.text target, none⟩, ⟨.text index, none⟩]

variable {g}

theorem sealedValues_gives {plain : Option String} {target index : Json} {d d' : Draft}
    (run : (g.sealedValues plain).Gives d (target, index) d') :
    g.Pair plain target index ∧ d'.parameters = d.parameters ∧
      d.supply.SameNames d'.supply := by
  cases plain with
  | none =>
    simp only [sealedValues, Seal.gives_pure, Prod.mk.injEq] at run
    obtain ⟨⟨rfl, rfl⟩, rfl⟩ := run
    exact ⟨.null, rfl, .refl _⟩
  | some plain =>
    simp only [sealedValues, sealText, Seal.gives_bind, Seal.gives_pure, gives_encrypt,
      gives_index, Prod.mk.injEq] at run
    obtain ⟨_, _, ⟨c, _, ⟨cipher, rfl⟩, i, _, ⟨index, rfl⟩, rfl, rfl⟩, ⟨rfl, rfl⟩, rfl⟩ := run
    exact ⟨.text d.supply cipher index, rfl, g.handler.encrypt_sameNames plain d.supply⟩

/-- All that comparing can do: leave a null or an ordinal without slot alone, or rebind the slot to
a new name that holds the index. -/
theorem compare_cases {n : Nat} {d d' : Draft} (run : (g.act (.compare n)).Gives d () d') :
    ∃ mapping plain, g.inputs[n]? = some mapping ∧
      (d.parameters.valueOf mapping).plain? = some plain ∧
      ((plain = none ∧ d' = d) ∨
        ∃ text index, plain = some text ∧ g.handler.index text = .ok index ∧
          d'.supply = d.supply.freshName.2 ∧
          ((some n ∉ d.parameters.origins ∧ d'.parameters = d.parameters) ∨
            ∃ before slot behind, d.parameters.Splits n before slot behind ∧
              d'.parameters = { d.parameters with
                slots := before ++ ⟨.text d.supply.freshName.1, some n⟩ :: behind
                additional :=
                  d.parameters.additional.insert d.supply.freshName.1 (.string index) })) := by
  simp only [act, indexPlaceholder, Seal.gives_bind, gives_valueAt, gives_plainText] at run
  obtain ⟨_, _, ⟨⟨mapping, input, rfl⟩, rfl⟩, plain, _, ⟨text, rfl⟩, run⟩ := run
  refine ⟨mapping, plain, input, text, ?_⟩
  cases plain with
  | none =>
    simp only [Seal.gives_pure] at run
    exact .inl ⟨rfl, run.2.symm⟩
  | some plain =>
    right
    simp only [Seal.gives_bind, gives_index, Seal.gives_freshName, Seal.gives_get] at run
    obtain ⟨index, _, ⟨indexed, rfl⟩, _, _, ⟨rfl, rfl⟩, _, _, ⟨rfl, rfl⟩, run⟩ := run
    refine ⟨plain, index, rfl, indexed, ?_⟩
    by_cases found : some n ∈ d.parameters.origins
    · obtain ⟨before, slot, behind, split⟩ := Parameters.exists_splits found
      rw [split.replace?] at run
      simp only [Seal.gives_setParameters] at run
      subst run
      exact ⟨rfl, .inr ⟨before, slot, behind, split, rfl⟩⟩
    · have absent := Parameters.position?_absent found
      simp only [Parameters.replace?, absent, Option.bind_eq_bind, Option.bind_none,
        Seal.gives_pure] at run
      obtain ⟨-, rfl⟩ := run
      exact ⟨rfl, .inl ⟨found, rfl⟩⟩

theorem bindPair_cases {n : Nat} {target index : Json} {d d' : Draft}
    (run : (g.bindPair n target index).Gives d () d') :
    d'.supply = d.supply.freshName.2.freshName.2 ∧
      ∃ before slot behind, d.parameters.Splits n before slot behind ∧
        d'.parameters = { d.parameters with
          slots := before ++ g.pairSlots slot d.supply.freshName.1
            d.supply.freshName.2.freshName.1 ++ behind
          additional := (d.parameters.additional.insert d.supply.freshName.1 target).insert
            d.supply.freshName.2.freshName.1 index } := by
  simp only [bindPair, Seal.gives_bind, Seal.gives_freshName, Seal.gives_get] at run
  obtain ⟨_, _, ⟨rfl, rfl⟩, _, _, ⟨rfl, rfl⟩, _, _, ⟨rfl, rfl⟩, run⟩ := run
  by_cases found : some n ∈ d.parameters.origins
  · obtain ⟨before, slot, behind, split⟩ := Parameters.exists_splits found
    have one : 1 ≤ (behind.insertIdx 0 ⟨.text d.supply.freshName.1, none⟩).length := by simp
    simp only [split.addAfter? _ _ (Nat.zero_le _), (split.around _ _).addAfter? _ _ one,
      (split.around _ _).remove?] at run
    cases keep : g.options.writeSource with
    | true =>
      simp only [keep, if_true, Seal.gives_setParameters] at run
      subst run
      exact ⟨rfl, before, slot, behind, split, by simp [pairSlots, keep]⟩
    | false =>
      simp only [keep, Bool.false_eq_true, if_false, Seal.gives_setParameters] at run
      subst run
      exact ⟨rfl, before, slot, behind, split, by simp [pairSlots, keep]⟩
  · have absent := Parameters.position?_absent found
    simp [Parameters.addAfter?, absent] at run

theorem write_cases {n : Nat} {d d' : Draft} (run : (g.act (.write n)).Gives d () d') :
    ∃ mapping plain target index, g.inputs[n]? = some mapping ∧
      (d.parameters.valueOf mapping).plain? = some plain ∧ g.Pair plain target index ∧
      d.supply.freshName.2.freshName.2.SameNames d'.supply ∧
      ∃ before slot behind, d.parameters.Splits n before slot behind ∧
        d'.parameters = { d.parameters with
          slots := before ++ g.pairSlots slot d.supply.freshName.1
            d.supply.freshName.2.freshName.1 ++ behind
          additional := (d.parameters.additional.insert d.supply.freshName.1 target).insert
            d.supply.freshName.2.freshName.1 index } := by
  simp only [act, Seal.gives_bind, gives_valueAt, gives_plainText] at run
  obtain ⟨_, _, ⟨⟨mapping, input, rfl⟩, rfl⟩, plain, _, ⟨text, rfl⟩, ⟨target, index⟩, mid, sealed,
    run⟩ := run
  obtain ⟨pair, parameters, same⟩ := sealedValues_gives sealed
  obtain ⟨supply, before, slot, behind, split, after⟩ := bindPair_cases run
  obtain ⟨first, same⟩ := same.freshName
  obtain ⟨second, same⟩ := same.freshName
  rw [parameters] at split after
  rw [first, second] at after
  exact ⟨mapping, plain, target, index, input, text, pair, supply ▸ same, before, slot, behind,
    split, after⟩

end Sealing

end SealedColumns
