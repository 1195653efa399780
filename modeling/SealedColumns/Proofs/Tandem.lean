import SealedColumns.Proofs.Settled

/-!
Two runs side by side. They start from drafts with the same parameters and the same supply, and
fail for the same reason or both succeed with related results; the drafts that they leave agree
again. What is logged and which aliases are recorded does not count.
-/
namespace SealedColumns

structure Draft.Alike (d d' : Draft) : Prop where
  parameters : d'.parameters = d.parameters
  supply : d'.supply = d.supply

namespace Seal

variable {α β γ δ : Type}

inductive Agree (R : α → β → Prop) :
    Except Error α × Draft → Except Error β × Draft → Prop where
  | fails (e : Error) (d d' : Draft) : Agree R (.error e, d) (.error e, d')
  | gives {a : α} {b : β} {d d' : Draft} : R a b → d.Alike d' → Agree R (.ok a, d) (.ok b, d')

/-- The two runs end alike from all drafts that are alike. -/
def Tandem (R : α → β → Prop) (m : Seal α) (m' : Seal β) : Prop :=
  ∀ d d', d.Alike d' → Agree R (m.run d) (m'.run d')

namespace Tandem

variable {R : α → β → Prop} {S : γ → δ → Prop} {m : Seal α} {m' : Seal β}

theorem pure {a : α} {b : β} (related : R a b) : Tandem R (pure a) (pure b) :=
  fun _ _ alike => .gives related alike

theorem throw (e : Error) : Tandem R (throw e) (throw e) := fun d d' _ => .fails e d d'

theorem fail (fault : SealFault) : Tandem R (fail fault) (fail fault) := throw _

theorem bind {f : α → Seal γ} {f' : β → Seal δ} (first : Tandem R m m')
    (second : ∀ a b, R a b → Tandem S (f a) (f' b)) : Tandem S (m >>= f) (m' >>= f') := by
  intro d d' alike
  change Agree S (ExceptT.bindCont f (m.run d).1 (m.run d).2)
    (ExceptT.bindCont f' (m'.run d').1 (m'.run d').2)
  generalize m.run d = r, m'.run d' = r', first d d' alike = agree
  cases agree with
  | fails e s s' => exact .fails e s s'
  | gives related alike => exact second _ _ related _ _ alike

theorem imp {S : α → β → Prop} (tandem : Tandem R m m') (weaker : ∀ a b, R a b → S a b) :
    Tandem S m m' := by
  intro d d' alike
  generalize m.run d = r, m'.run d' = r', tandem d d' alike = agree
  cases agree with
  | fails e s s' => exact .fails e s s'
  | gives related alike => exact .gives (weaker _ _ related) alike

/-- Two runs that leave everything but the log. -/
theorem of_idles {a : α} {b : β} (idle : m.Idles a) (idle' : m'.Idles b) (related : R a b) :
    Tandem R m m' := by
  intro d d' alike
  obtain ⟨log, run⟩ := idle d
  obtain ⟨log', run'⟩ := idle' d'
  rw [Gives] at run run'
  rw [run, run']
  exact .gives related ⟨alike.parameters, alike.supply⟩

theorem get : Tandem Draft.Alike get get := fun _ _ alike => .gives alike alike

theorem set {d d' : Draft} (alike : d.Alike d') :
    Tandem (fun _ _ => True) (set d : Seal PUnit) (set d' : Seal PUnit) :=
  fun _ _ _ => .gives trivial alike

end Tandem

/-- A step that reads and changes parameters and supply only: what the log and the aliases are does
not matter to it. -/
def Steady (m : Seal α) : Prop := Tandem Eq m m

namespace Steady

theorem pure (a : α) : Steady (pure a) := Tandem.pure rfl

theorem throw (e : Error) : Steady (throw e : Seal α) := Tandem.throw e

theorem fail (fault : SealFault) : Steady (fail fault : Seal α) := Tandem.fail fault

theorem bind {m : Seal α} {f : α → Seal β} (first : Steady m) (second : ∀ a, Steady (f a)) :
    Steady (m >>= f) :=
  Tandem.bind first fun a _ same => same ▸ second a

theorem ofHandler (r : Except HandlerError α) : Steady (ofHandler r) := by
  cases r with
  | ok a => exact pure a
  | error cause => exact throw _

theorem freshName : Steady freshName := by
  rintro ⟨parameters, aliases, log, supply⟩ ⟨_, aliases', log', _⟩ ⟨rfl, rfl⟩
  exact .gives rfl ⟨rfl, rfl⟩

theorem setParameters (p : Parameters) : Steady (setParameters p) := by
  rintro ⟨parameters, aliases, log, supply⟩ ⟨_, aliases', log', _⟩ ⟨rfl, rfl⟩
  exact .gives rfl ⟨rfl, rfl⟩

theorem get {f : Draft → Seal α} (unaffected : ∀ d d', d.Alike d' → f d' = f d)
    (later : ∀ d, Steady (f d)) : Steady (do f (← get)) :=
  Tandem.bind Tandem.get fun d d' alike => unaffected d d' alike ▸ later d

end Steady

end Seal

open Seal

theorem plainText_steady (value : Json) : Steady (plainText value) := by
  cases value with
  | array items => exact .fail _
  | object members => exact .fail _
  | _ => exact .pure _

namespace Sealing

variable (g : Sealing)

theorem encrypt_steady (plain : String) : Steady (g.encrypt plain) := by
  refine Tandem.bind Tandem.get fun d d' alike => ?_
  rw [alike.supply]
  have after : { d with supply := (g.handler.encrypt plain d.supply).2 }.Alike
      { d' with supply := (g.handler.encrypt plain d.supply).2 } := ⟨alike.parameters, rfl⟩
  exact (Tandem.set after).bind fun _ _ _ => Steady.ofHandler _

theorem index_steady (plain : String) : Steady (g.index plain) := .ofHandler _

theorem valueAt_steady (ordinal : Nat) : Steady (g.valueAt ordinal) := by
  unfold valueAt
  split
  · exact .get (fun _ _ alike => by rw [alike.parameters]) fun _ => .pure _
  · exact .fail _

theorem sealText_steady (plain : String) : Steady (g.sealText plain) :=
  (g.encrypt_steady plain).bind fun _ => (g.index_steady plain).bind fun _ => .pure _

theorem sealedValues_steady (plain : Option String) : Steady (g.sealedValues plain) := by
  cases plain with
  | none => exact .pure _
  | some plain => exact (g.sealText_steady plain).bind fun _ => .pure _

theorem bindPair_steady (ordinal : Nat) (target index : Json) :
    Steady (g.bindPair ordinal target index) := by
  refine Steady.freshName.bind fun targetName => Steady.freshName.bind fun indexName => ?_
  refine .get (fun _ _ alike => by simp only [alike.parameters]) fun d => ?_
  dsimp only
  split
  · exact .fail _
  · split
    · exact .fail _
    · split
      · exact .setParameters _
      · split
        · exact .setParameters _
        · exact .setParameters _

theorem sealOperand_steady (operand : Operand) : Steady (g.sealOperand operand) := by
  cases operand with
  | placeholder n =>
    refine (g.valueAt_steady n).bind fun value => (plainText_steady value).bind fun plain => ?_
    refine (g.sealedValues_steady plain).bind fun pair => ?_
    exact (g.bindPair_steady n pair.1 pair.2).bind fun _ => .pure _
  | literal plain => exact (g.sealText_steady plain).bind fun _ => .pure _
  | null => exact .pure _

theorem sealValue_steady (e : Sql.Expr Nat) : Steady (g.sealValue e) := by
  unfold sealValue
  split
  · exact g.sealOperand_steady _
  · exact .fail _

theorem indexPlaceholder_steady (ordinal : Nat) : Steady (g.indexPlaceholder ordinal) := by
  refine (g.valueAt_steady ordinal).bind fun value => (plainText_steady value).bind fun plain => ?_
  cases plain with
  | none => exact .pure _
  | some plain =>
    refine (g.index_steady plain).bind fun index => Steady.freshName.bind fun name => ?_
    refine .get (fun _ _ alike => by simp only [alike.parameters]) fun d => ?_
    split
    · exact .setParameters _
    · exact .pure _

end Sealing

/-- Two passes over one bound statement, whose trees have as many placeholders each. -/
theorem sealBound_tandem {active : ActiveColumns} {handler : Handler} {options : SealOptions}
    {resultMaps : List ResultMap} {bound : BoundStatement} {t t' : Sql.Statement}
    {supply : Supply} (count : t'.countAnonymous = t.countAnonymous)
    {R : Sql.Statement Nat → Sql.Statement Nat → Prop} :
    let g : Sealing := ⟨active, handler, options, resultMaps, bound.mappings⟩
    let result := (sealBound active handler options resultMaps bound t supply).1
    let result' := (sealBound active handler options resultMaps bound t' supply).1
    Tandem R (g.sealTree t.number.1) (g.sealTree t'.number.1) →
      (∃ e, result = .error e ∧ result' = .error e) ∨
      ∃ tree tree' sealed sealed', result = .ok sealed ∧ result' = .ok sealed' ∧
        Sealing.Emits g bound supply t tree sealed ∧
        Sealing.Emits g bound supply t' tree' sealed' ∧ R tree tree' ∧
        sealed'.bound = { sealed.bound with sql := sealed'.bound.sql } := by
  intro g result result' tandem
  by_cases counted : t.countAnonymous = bound.mappings.length
  · have counted' : t'.countAnonymous = bound.mappings.length := count.trans counted
    have agree := tandem (Sealing.draftOf bound supply) _ ⟨rfl, rfl⟩
    generalize run : (g.sealTree t.number.1).run (Sealing.draftOf bound supply) = r,
      run' : (g.sealTree t'.number.1).run (Sealing.draftOf bound supply) = r' at agree
    cases agree with
    | fails e d d' => exact .inl ⟨e, sealBound_error counted run, sealBound_error counted' run'⟩
    | @gives tree tree' d d' related alike =>
      refine .inr ⟨tree, tree', _, _, sealBound_emits counted run, sealBound_emits counted' run',
        ⟨counted.symm, d, run, rfl⟩, ⟨counted'.symm, d', run', rfl⟩, related, ?_⟩
      simp only [Parameters.toBound, Parameters.mappings, alike.parameters]
  · refine .inl ⟨_, sealBound_miscounted counted, ?_⟩
    rw [← count] at counted ⊢
    exact sealBound_miscounted counted

end SealedColumns
