import Mathlib.Data.List.Forall2
import SealedColumns.Proofs.Ledger

/-!
With a handler that never fails no act fails: each one finds the slot of its ordinal where it was
at the start.
-/
namespace SealedColumns

/-- A handler that never fails, and that decrypts what it encrypted. -/
structure Handler.Reliable (handler : Handler) : Prop where
  encrypts : ∀ plain supply, ∃ cipher, (handler.encrypt plain supply).1 = .ok cipher
  decrypts : ∀ plain supply cipher, (handler.encrypt plain supply).1 = .ok cipher →
    handler.decrypt cipher = .ok plain
  indexes : ∀ plain, ∃ index, handler.index plain = .ok index

namespace Sealing

variable {g : Sealing} {bound : BoundStatement} {supply : Supply} {done : List Act} {d : Draft}
  {part : Nat → List Slot}

theorem sealText_gives (reliable : g.handler.Reliable) (plain : String) (d : Draft) :
    ∃ cipher index d', (g.sealText plain).Gives d (cipher, index) d' ∧
      g.Pair (some plain) (.string cipher) (.string index) ∧ d'.parameters = d.parameters ∧
      d.supply.SameNames d'.supply ∧ d'.aliases = d.aliases := by
  obtain ⟨cipher, encrypted⟩ := reliable.encrypts plain d.supply
  obtain ⟨index, indexed⟩ := reliable.indexes plain
  refine ⟨cipher, index, { d with supply := (g.handler.encrypt plain d.supply).2 }, ?_,
    .text d.supply encrypted indexed, rfl, g.handler.encrypt_sameNames plain d.supply, rfl⟩
  simp only [sealText, Seal.gives_bind, gives_encrypt, gives_index, Seal.gives_pure]
  exact ⟨_, _, ⟨encrypted, rfl⟩, _, _, ⟨indexed, rfl⟩, rfl, rfl⟩

theorem addAfter?_found {p : Parameters} {n : Nat} (found : some n ∈ p.origins) (property : String)
    (value : Json) (offset : Nat) :
    ∃ p', p.addAfter? property value (.origin n) offset = some p' ∧ some n ∈ p'.origins := by
  obtain ⟨before, slot, behind, split⟩ := Parameters.exists_splits found
  obtain ⟨s, member, origin⟩ := List.mem_map.mp found
  have inside : min (before.length + offset + 1) p.slots.length ≤ p.slots.length :=
    Nat.min_le_right _ _
  simp only [Parameters.addAfter?, split.position?, Option.bind_eq_bind, Option.bind_some,
    Option.some.injEq, exists_eq_left']
  exact List.mem_map.mpr ⟨s, (List.mem_insertIdx inside).mpr (.inr member), origin⟩

theorem bindPair_gives {n : Nat} (found : some n ∈ d.parameters.origins) (target index : Json) :
    ∃ d', (g.bindPair n target index).Gives d () d' ∧ d'.aliases = d.aliases := by
  obtain ⟨p, first, there⟩ := addAfter?_found found d.supply.freshName.1 target 0
  obtain ⟨q, second, -⟩ := addAfter?_found there d.supply.freshName.2.freshName.1 index 1
  refine ⟨{ d with
    parameters := if g.options.writeSource then q
      else ((q.remove? (.origin n)).map Prod.snd).getD q
    supply := d.supply.freshName.2.freshName.2 }, ?_, rfl⟩
  simp only [bindPair, Seal.gives_bind, Seal.gives_freshName, Seal.gives_get]
  refine ⟨_, _, ⟨rfl, rfl⟩, _, _, ⟨rfl, rfl⟩, _, _, ⟨rfl, rfl⟩, ?_⟩
  simp only [first, second]
  split
  · simp
  · split
    · rename_i removed
      simp [removed]
    · rename_i missing
      simp [missing]

theorem sealedValues_reliable (reliable : g.handler.Reliable) (plain : Option String) (d : Draft) :
    ∃ target index d', (g.sealedValues plain).Gives d (target, index) d' ∧
      d'.parameters = d.parameters ∧ d'.aliases = d.aliases := by
  cases plain with
  | none => exact ⟨.null, .null, d, by simp [sealedValues], rfl, rfl⟩
  | some plain =>
    obtain ⟨cipher, index, d', run, -, parameters, -, aliases⟩ := sealText_gives reliable plain d
    refine ⟨.string cipher, .string index, d', ?_, parameters, aliases⟩
    simp only [sealedValues, Seal.gives_bind, Seal.gives_pure]
    exact ⟨_, _, run, rfl, rfl⟩

/-- An act succeeds where its slot is there and its mapping reads a text or null. -/
theorem act_gives (reliable : g.handler.Reliable) (a : Act) {m : ParameterMapping}
    (input : g.inputs[a.ordinal]? = some m) (found : some a.ordinal ∈ d.parameters.origins)
    {plain : Option String} (read : (d.parameters.valueOf m).plain? = some plain) :
    ∃ d', (g.act a).Gives d () d' ∧ d'.aliases = d.aliases := by
  cases a with
  | compare n =>
    replace found : some n ∈ d.parameters.origins := found
    simp only [act, indexPlaceholder, Seal.gives_bind, gives_valueAt, gives_plainText]
    cases plain with
    | none =>
      refine ⟨d, ⟨_, d, ⟨⟨m, input, rfl⟩, rfl⟩, none, d, ⟨read, rfl⟩, ?_⟩, rfl⟩
      simp only [Seal.gives_pure]
      exact ⟨trivial, trivial⟩
    | some text =>
      obtain ⟨index, indexed⟩ := reliable.indexes text
      obtain ⟨before, slot, behind, split⟩ := Parameters.exists_splits found
      refine ⟨{ d with
        parameters := { d.parameters with
          slots := before ++ ⟨.text d.supply.freshName.1, some n⟩ :: behind
          additional :=
            d.parameters.additional.insert d.supply.freshName.1 (.string index) }
        supply := d.supply.freshName.2 },
        ⟨_, d, ⟨⟨m, input, rfl⟩, rfl⟩, some text, d, ⟨read, rfl⟩, ?_⟩, rfl⟩
      simp only [Seal.gives_bind, gives_index, Seal.gives_freshName, Seal.gives_get]
      refine ⟨index, d, ⟨indexed, rfl⟩, _, _, ⟨rfl, rfl⟩, _, _, ⟨rfl, rfl⟩, ?_⟩
      simp only [split.replace?, Seal.gives_setParameters]
  | write n =>
    obtain ⟨target, index, d', sealed, parameters, aliases⟩ :=
      sealedValues_reliable reliable plain d
    have still : some n ∈ d'.parameters.origins := parameters ▸ found
    obtain ⟨after, bound, same⟩ := bindPair_gives still target index
    simp only [act, Seal.gives_bind, gives_valueAt, gives_plainText]
    exact ⟨_, ⟨_, d, ⟨⟨m, input, rfl⟩, rfl⟩, plain, d, ⟨read, rfl⟩, _, _, sealed, bound⟩,
      same.trans aliases⟩

/-- What no pass fails from: a reliable handler, new names, and mappings that read a text or
null. -/
structure Setting (g : Sealing) (bound : BoundStatement) (supply : Supply) : Prop where
  reliable : g.handler.Reliable
  inputs : g.inputs = bound.mappings
  fresh : supply.Fresh bound
  scalars : ∀ m ∈ bound.mappings, ∃ plain,
    ((Parameters.ofBound bound).valueOf m).plain? = some plain

/-- Acts on mappings of the input, none of them twice. -/
structure Allowed (bound : BoundStatement) (done acts : List Act) : Prop where
  inside : ∀ a ∈ acts, a.ordinal < bound.mappings.length
  single : ((done ++ acts).map Act.ordinal).Nodup

theorem Allowed.first {more acts : List Act} (allowed : Allowed bound done (acts ++ more)) :
    Allowed bound done acts := by
  refine ⟨fun a member => allowed.inside a (List.mem_append_left _ member), ?_⟩
  have single := allowed.single
  rw [← List.append_assoc, List.map_append] at single
  exact (List.nodup_append.mp single).1

theorem Allowed.second {more acts : List Act} (allowed : Allowed bound done (acts ++ more)) :
    Allowed bound (done ++ acts) more := by
  refine ⟨fun a member => allowed.inside a (List.mem_append_right _ member), ?_⟩
  have single := allowed.single
  rwa [← List.append_assoc] at single

variable {α β : Type}

/-- A step that succeeds wherever its acts are allowed, with a result that is `ok`. -/
def Succeeds (g : Sealing) (bound : BoundStatement) (supply : Supply) (m : Seal α)
    (acts : List Act) (ok : α → Prop) : Prop :=
  ∀ done d part, Allowed bound done acts → Ledger g bound supply done d part →
    ∃ a d' part', m.Gives d a d' ∧ ok a ∧ Ledger g bound supply (done ++ acts) d' part' ∧
      d'.aliases = d.aliases

namespace Succeeds

variable {m : Seal α} {f : α → Seal β} {acts more : List Act} {ok : α → Prop} {ok' : β → Prop}

theorem pure {a : α} (holds : ok a) : g.Succeeds bound supply (pure a) [] ok := by
  intro done d part _ ledger
  rw [List.append_nil]
  exact ⟨a, d, part, (Seal.gives_pure _ _ _ _).mpr ⟨rfl, rfl⟩, holds, ledger, rfl⟩

theorem bind (first : g.Succeeds bound supply m acts ok)
    (second : ∀ a, ok a → g.Succeeds bound supply (f a) more ok') :
    g.Succeeds bound supply (m >>= f) (acts ++ more) ok' := by
  intro done d part allowed ledger
  obtain ⟨a, mid, part, run, holds, ledger, same⟩ := first done d part allowed.first ledger
  obtain ⟨b, d', part, run', holds', ledger', same'⟩ :=
    second a holds (done ++ acts) mid part allowed.second ledger
  rw [← List.append_assoc]
  exact ⟨b, d', part, (Seal.gives_bind _ _ _ _ _).mpr ⟨a, mid, run, run'⟩, holds', ledger',
    same'.trans same⟩

theorem wrap {wrapper : α → β} (first : g.Succeeds bound supply m acts ok)
    (wrapped : ∀ a, ok a → ok' (wrapper a)) :
    g.Succeeds bound supply (m >>= fun a => Pure.pure (wrapper a)) acts ok' := by
  rw [← List.append_nil acts]
  exact first.bind fun a holds => pure (wrapped a holds)

theorem weaken {ok'' : α → Prop} (first : g.Succeeds bound supply m acts ok)
    (weaker : ∀ a, ok a → ok'' a) : g.Succeeds bound supply m acts ok'' := by
  intro done d part allowed ledger
  obtain ⟨a, d', part', run, holds, rest⟩ := first done d part allowed ledger
  exact ⟨a, d', part', run, weaker a holds, rest⟩

theorem mapM {step : α → Seal β} {acts : α → List Act} {R : α → β → Prop} {as : List α}
    (each : ∀ a ∈ as, g.Succeeds bound supply (step a) (acts a) (R a)) :
    g.Succeeds bound supply (as.mapM step) (as.flatMap acts) (List.Forall₂ R as) := by
  induction as with
  | nil =>
    rw [List.mapM_nil]
    exact pure .nil
  | cons a as ih =>
    rw [List.mapM_cons, List.flatMap_cons]
    have others := ih fun b member => each b (List.mem_cons_of_mem _ member)
    refine (each a List.mem_cons_self).bind fun b here => ?_
    exact others.wrap fun bs later => .cons here later

end Succeeds

theorem Setting.act (setting : Setting g bound supply) (a : Act) :
    g.Succeeds bound supply (g.act a) [a] fun _ => True := by
  intro done d part allowed ledger
  have inside := allowed.inside a List.mem_cons_self
  obtain ⟨mapping, input⟩ : ∃ mapping, bound.mappings[a.ordinal]? = some mapping :=
    ⟨_, List.getElem?_eq_getElem inside⟩
  have known : g.inputs[a.ordinal]? = some mapping := by rw [setting.inputs, input]
  have untouched : ∀ b ∈ done, b.ordinal ≠ a.ordinal := by
    have single := allowed.single
    rw [List.map_append, List.nodup_append] at single
    intro b member
    exact single.2.2 b.ordinal (List.mem_map_of_mem member) a.ordinal (by simp)
  obtain ⟨plain, read⟩ := setting.scalars _ (List.mem_of_getElem? input)
  rw [← ledger.reads setting.fresh (List.mem_of_getElem? input)] at read
  obtain ⟨d', step, same⟩ := act_gives setting.reliable a known
    (ledger.found input untouched) read
  obtain ⟨part', ledger'⟩ := ledger.act setting.fresh setting.inputs untouched step
  exact ⟨(), d', part', step, trivial, ledger', same⟩

/-- What the target and the index column get for a literal. -/
structure Literals (handler : Handler) (plain : String) (sealed : String × String) : Prop where
  encrypted : ∃ supply, (handler.encrypt plain supply).1 = .ok sealed.1
  decrypted : handler.decrypt sealed.1 = .ok plain
  indexed : handler.index plain = .ok sealed.2

theorem Setting.sealText (setting : Setting g bound supply) (plain : String) :
    g.Succeeds bound supply (g.sealText plain) [] (Literals g.handler plain) := by
  intro done d part _ ledger
  obtain ⟨cipher, index, d', run, pair, parameters, names, same⟩ :=
    sealText_gives setting.reliable plain d
  refine ⟨(cipher, index), d', part, run, ?_, ?_, same⟩
  · cases pair with
    | text supply encrypted indexed =>
      exact ⟨⟨supply, encrypted⟩, setting.reliable.decrypts plain supply cipher encrypted, indexed⟩
  · rw [List.append_nil]
    exact ledger.quiet parameters names

theorem Setting.index (setting : Setting g bound supply) (plain : String) :
    g.Succeeds bound supply (g.index plain) [] fun key => g.handler.index plain = .ok key := by
  intro done d part _ ledger
  obtain ⟨key, indexed⟩ := setting.reliable.indexes plain
  rw [List.append_nil]
  exact ⟨key, d, part, (gives_index g _ _ _ _).mpr ⟨indexed, rfl⟩, indexed, ledger, rfl⟩

end Sealing

end SealedColumns
