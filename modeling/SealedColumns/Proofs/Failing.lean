import SealedColumns.Proofs.Run

/-!
Failing runs of sealing steps. `m.Fails d e` says that `m` fails from the draft `d` with the error
`e`; as for successful runs there is one equivalence for each way to build a step. A row of steps
fails at one of them, after all before it have succeeded.
-/
namespace SealedColumns

namespace Seal

variable {α β : Type}

def Fails (m : Seal α) (d : Draft) (e : Error) : Prop := ∃ d', m.run d = (.error e, d')

theorem fails_or_gives (m : Seal α) (d : Draft) : (∃ e, m.Fails d e) ∨ ∃ a d', m.Gives d a d' := by
  rcases run : m.run d with ⟨e | a, d'⟩
  · exact .inl ⟨e, d', run⟩
  · exact .inr ⟨a, d', run⟩

theorem Gives.not_fails {m : Seal α} {d d' : Draft} {a : α} (run : m.Gives d a d') (e : Error) :
    ¬ m.Fails d e := by
  rintro ⟨_, fails⟩
  rw [Gives, fails] at run
  cases run

@[simp] theorem fails_pure (a : α) (d : Draft) (e : Error) : ¬ (pure a : Seal α).Fails d e :=
  Gives.not_fails ((gives_pure a a d d).mpr ⟨rfl, rfl⟩) e

@[simp] theorem fails_bind (m : Seal α) (f : α → Seal β) (d : Draft) (e : Error) :
    (m >>= f).Fails d e ↔ m.Fails d e ∨ ∃ a d', m.Gives d a d' ∧ (f a).Fails d' e := by
  have unfolded : (m >>= f).run d = ExceptT.bindCont f (m.run d).1 (m.run d).2 := rfl
  rw [Fails, unfolded]
  rcases first : m.run d with ⟨e' | a, middle⟩
  · constructor
    · rintro ⟨_, same⟩
      cases same
      exact .inl ⟨_, first⟩
    · rintro (⟨_, same⟩ | ⟨_, _, run, _⟩)
      · rw [first] at same
        cases same
        exact ⟨_, rfl⟩
      · rw [Gives, first] at run
        cases run
  · constructor
    · exact fun later => .inr ⟨a, middle, first, later⟩
    · rintro (⟨_, same⟩ | ⟨_, _, run, later⟩)
      · rw [first] at same
        cases same
      · rw [Gives, first] at run
        cases run
        exact later

@[simp] theorem fails_get (d : Draft) (e : Error) : ¬ (get : Seal Draft).Fails d e :=
  Gives.not_fails ((gives_get d d d).mpr ⟨rfl, rfl⟩) e

@[simp] theorem fails_set (d d' : Draft) (e : Error) : ¬ (set d' : Seal PUnit).Fails d e :=
  Gives.not_fails ((gives_set d d' d' PUnit.unit).mpr rfl) e

@[simp] theorem fails_setParameters (p : Parameters) (d : Draft) (e : Error) :
    ¬ (setParameters p).Fails d e :=
  Gives.not_fails ((gives_setParameters p d _ ()).mpr rfl) e

@[simp] theorem fails_freshName (d : Draft) (e : Error) : ¬ freshName.Fails d e :=
  Gives.not_fails ((gives_freshName d _ _).mpr ⟨rfl, rfl⟩) e

@[simp] theorem fails_throw (e' : Error) (d : Draft) (e : Error) :
    (throw e' : Seal α).Fails d e ↔ e = e' := by
  constructor
  · rintro ⟨_, same⟩
    cases same
    rfl
  · rintro rfl
    exact ⟨d, rfl⟩

@[simp] theorem fails_fail (fault : SealFault) (d : Draft) (e : Error) :
    (fail fault : Seal α).Fails d e ↔ e = .sealing fault := fails_throw _ d e

@[simp] theorem fails_ofHandler (r : Except HandlerError α) (d : Draft) (e : Error) :
    (ofHandler r).Fails d e ↔ ∃ cause, r = .error cause ∧ e = .handler cause := by
  cases r with
  | error cause => simp [ofHandler]
  | ok a => simp [ofHandler]

/-- A row of steps fails at the first one, or behind it. -/
theorem fails_forM_cons (f : α → Seal PUnit) (x : α) (xs : List α) (d : Draft) (e : Error) :
    (forM (x :: xs) f).Fails d e ↔
      (f x).Fails d e ∨ ∃ u d', (f x).Gives d u d' ∧ (forM xs f).Fails d' e := by
  rw [List.forM_cons, fails_bind]

end Seal

namespace Sealing

variable (g : Sealing)

@[simp] theorem fails_encrypt (plain : String) (d : Draft) (e : Error) :
    (g.encrypt plain).Fails d e ↔
      ∃ cause, (g.handler.encrypt plain d.supply).1 = .error cause ∧ e = .handler cause := by
  simp [encrypt]

@[simp] theorem fails_index (plain : String) (d : Draft) (e : Error) :
    (g.index plain).Fails d e ↔
      ∃ cause, g.handler.index plain = .error cause ∧ e = .handler cause := by
  simp [Sealing.index]

@[simp] theorem fails_valueAt (ordinal : Nat) (d : Draft) (e : Error) :
    (g.valueAt ordinal).Fails d e ↔
      g.inputs[ordinal]? = none ∧ e = .sealing (.unboundPlaceholder ordinal) := by
  unfold valueAt
  split
  · rename_i known
    simp only [known, Seal.fails_bind, Seal.fails_get, Seal.fails_pure, and_false, exists_false,
      or_self, reduceCtorEq, false_and]
  · rename_i missing
    simp [missing]

end Sealing

@[simp] theorem fails_plainText (value : Json) (d : Draft) (e : Error) :
    (plainText value).Fails d e ↔ value.plain? = none ∧ e = .sealing .structuredValue := by
  cases value <;> simp [plainText, Json.plain?]

end SealedColumns
