import Mathlib.Data.List.Forall2
import SealedColumns.Seal.Write

/-!
Successful runs of sealing steps. `m.Gives d a d'` says that `m` succeeds from the draft `d` with
the result `a` and leaves the draft `d'`; there is one equivalence for each way to build a step, so
that a run of a whole function comes apart into the runs of its steps.
-/
namespace SealedColumns

namespace Seal

variable {α β : Type}

/-- A run that succeeds, with its result and the draft that it leaves. -/
def Gives (m : Seal α) (d : Draft) (a : α) (d' : Draft) : Prop := m.run d = (.ok a, d')

@[simp] theorem gives_pure (a b : α) (d d' : Draft) :
    (pure a : Seal α).Gives d b d' ↔ a = b ∧ d = d' := by
  constructor
  · intro h
    cases h
    exact ⟨rfl, rfl⟩
  · rintro ⟨rfl, rfl⟩
    rfl

@[simp] theorem gives_bind (m : Seal α) (f : α → Seal β) (d d'' : Draft) (b : β) :
    (m >>= f).Gives d b d'' ↔ ∃ a d', m.Gives d a d' ∧ (f a).Gives d' b d'' := by
  have unfolded : (m >>= f).run d = ExceptT.bindCont f (m.run d).1 (m.run d).2 := rfl
  constructor
  · intro h
    rw [Gives, unfolded] at h
    rcases first : m.run d with ⟨e | a, d'⟩
    · rw [first] at h
      cases h
    · rw [first] at h
      exact ⟨a, d', first, h⟩
  · rintro ⟨a, d', first, second⟩
    rw [Gives] at first
    rw [Gives, unfolded, first]
    exact second

@[simp] theorem gives_get (d d' a : Draft) : (get : Seal Draft).Gives d a d' ↔ d = a ∧ d = d' := by
  constructor
  · intro h
    cases h
    exact ⟨rfl, rfl⟩
  · rintro ⟨rfl, rfl⟩
    rfl

@[simp] theorem gives_set (d d' e : Draft) (u : PUnit) :
    (set e : Seal PUnit).Gives d u d' ↔ e = d' := by
  constructor
  · intro h
    cases h
    rfl
  · rintro rfl
    rfl

@[simp] theorem gives_modify (f : Draft → Draft) (d d' : Draft) (u : PUnit) :
    (modify f : Seal PUnit).Gives d u d' ↔ f d = d' := by
  constructor
  · intro h
    cases h
    rfl
  · rintro rfl
    rfl

@[simp] theorem gives_throw (e : Error) (d d' : Draft) (a : α) :
    ¬ (throw e : Seal α).Gives d a d' := by
  intro h
  cases h

@[simp] theorem gives_fail (fault : SealFault) (d d' : Draft) (a : α) :
    ¬ (fail fault : Seal α).Gives d a d' := gives_throw _ d d' a

@[simp] theorem gives_note (event : Event) (d d' : Draft) (u : Unit) :
    (note event).Gives d u d' ↔ { d with log := d.log ++ [event] } = d' := gives_modify _ d d' u

@[simp] theorem gives_setParameters (p : Parameters) (d d' : Draft) (u : Unit) :
    (setParameters p).Gives d u d' ↔ { d with parameters := p } = d' := gives_modify _ d d' u

@[simp] theorem gives_freshName (d d' : Draft) (name : String) :
    freshName.Gives d name d' ↔
      d.supply.freshName.1 = name ∧ { d with supply := d.supply.freshName.2 } = d' := by
  constructor
  · intro h
    cases h
    exact ⟨rfl, rfl⟩
  · rintro ⟨rfl, rfl⟩
    rfl

@[simp] theorem gives_ofHandler (r : Except HandlerError α) (d d' : Draft) (a : α) :
    (ofHandler r).Gives d a d' ↔ r = .ok a ∧ d = d' := by
  cases r with
  | error e => simp [ofHandler]
  | ok b => simp [ofHandler]

theorem gives_mapM {f : α → Seal β} {xs : List α} {ys : List β} {d d' : Draft}
    (run : (xs.mapM f).Gives d ys d') :
    List.Forall₂ (fun x y => ∃ before after, (f x).Gives before y after) xs ys := by
  induction xs generalizing ys d with
  | nil =>
    simp only [List.mapM_nil, gives_pure] at run
    obtain ⟨rfl, rfl⟩ := run
    exact .nil
  | cons x xs ih =>
    simp only [List.mapM_cons, gives_bind, gives_pure] at run
    obtain ⟨y, middle, first, rest, _, second, rfl, rfl⟩ := run
    exact .cons ⟨d, middle, first⟩ (ih second)

end Seal

namespace Sealing

variable (g : Sealing)

@[simp] theorem gives_encrypt (plain cipher : String) (d d' : Draft) :
    (g.encrypt plain).Gives d cipher d' ↔
      (g.handler.encrypt plain d.supply).1 = .ok cipher ∧
        { d with supply := (g.handler.encrypt plain d.supply).2 } = d' := by
  simp [encrypt]

@[simp] theorem gives_index (plain index : String) (d d' : Draft) :
    (g.index plain).Gives d index d' ↔ g.handler.index plain = .ok index ∧ d = d' := by
  simp [Sealing.index]

@[simp] theorem gives_valueAt (ordinal : Nat) (value : Json) (d d' : Draft) :
    (g.valueAt ordinal).Gives d value d' ↔
      (∃ mapping, g.inputs[ordinal]? = some mapping ∧ d.parameters.valueOf mapping = value) ∧
        d = d' := by
  unfold valueAt
  split
  · rename_i mapping found
    simp only [found, Seal.gives_bind, Seal.gives_get, Seal.gives_pure, Option.some.injEq,
      exists_eq_left']
    constructor
    · rintro ⟨_, _, ⟨rfl, rfl⟩, rfl, rfl⟩
      exact ⟨rfl, rfl⟩
    · rintro ⟨rfl, rfl⟩
      exact ⟨d, d, ⟨rfl, rfl⟩, rfl, rfl⟩
  · rename_i missing
    simp [missing]

end Sealing

/-- The text that a value is sealed as: none for null, and no answer for arrays and objects. -/
def Json.plain? : Json → Option (Option String)
  | .null => some none
  | .string s => some (some s)
  | .number n => some (some n.render)
  | .boolean b => some (some (if b then "true" else "false"))
  | .array _ | .object _ => none

@[simp] theorem gives_plainText (value : Json) (plain : Option String) (d d' : Draft) :
    (plainText value).Gives d plain d' ↔ value.plain? = some plain ∧ d = d' := by
  cases value <;> simp [plainText, Json.plain?]

end SealedColumns
