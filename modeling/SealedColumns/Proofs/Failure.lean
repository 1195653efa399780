import SealedColumns.Proofs.Asking
import SealedColumns.Proofs.Failing
import SealedColumns.Proofs.IndexedOnce
import SealedColumns.Proofs.Reliable

/-!
When sealing a statement fails: as many placeholders as mappings are wanted, no array or object may
be paired or indexed, and the handler must answer for each text that it is asked for. All other
errors that a pass can raise are out of reach, and rows are never read beyond their end.
-/
namespace SealedColumns

open Sql Seal

inductive Json.Structured : Json → Prop where
  | array (items : List Json) : Json.Structured (.array items)
  | object (members : Members Json) : Json.Structured (.object members)

theorem Json.plain?_eq_none {value : Json} : value.plain? = none ↔ value.Structured := by
  constructor
  · intro none
    cases value with
    | array items => exact .array items
    | object members => exact .object members
    | _ => cases none
  · rintro (_ | _) <;> rfl

namespace Sealing

/-- What an operand of a statement is sealed as: a text or null, or nothing if its placeholder is
bound to an array or an object. -/
def operandPlain? (bound : BoundStatement) : Operand → Option (Option String)
  | .placeholder n => (inputValue bound n).bind Json.plain?
  | .literal text => some (some text)
  | .null => some none

/-- The supply behind the calls for a value that is written. -/
def encryptedSupply (handler : Handler) (plain : Option (Option String)) (s : Supply) : Supply :=
  match plain with
  | some (some text) => (handler.encrypt text s).2
  | _ => s

/-- The supply behind a request: bytes go to ciphertexts, and names to new parameters. -/
def supplyAfter (handler : Handler) (bound : BoundStatement) (s : Supply) : Request → Supply
  | .index (.placeholder n) =>
    match operandPlain? bound (.placeholder n) with
    | some (some _) => s.freshName.2
    | _ => s
  | .index _ => s
  | .pair (.placeholder n) =>
    (encryptedSupply handler (operandPlain? bound (.placeholder n)) s).freshName.2.freshName.2
  | .pair operand => encryptedSupply handler (operandPlain? bound operand) s

end Sealing

/-- The handler fails with a text that a request has for it. -/
inductive Handler.Refuses (handler : Handler) (text : String) (s : Supply) :
    Request → HandlerError → Prop where
  | index {operand : Operand} {cause : HandlerError} : handler.index text = .error cause →
      Refuses handler text s (.index operand) cause
  | encrypt {operand : Operand} {cause : HandlerError} :
      (handler.encrypt text s).1 = .error cause → Refuses handler text s (.pair operand) cause
  | pairIndex {operand : Operand} {cause : HandlerError} : handler.index text = .error cause →
      Refuses handler text s (.pair operand) cause

namespace Sealing

/-- What a request fails with, whatever else happens in the pass. -/
inductive Fault (handler : Handler) (bound : BoundStatement) (s : Supply) (r : Request) :
    Error → Prop where
  | structured : operandPlain? bound r.operand = none →
      Fault handler bound s r (.sealing .structuredValue)
  | refused {text : String} {cause : HandlerError} :
      operandPlain? bound r.operand = some (some text) → handler.Refuses text s r cause →
        Fault handler bound s r (.handler cause)

/-- From here a row of requests fails for no other reason than a fault: inputs read what they read
at the start, and each placeholder that is asked for has its slot. -/
structure Poised (g : Sealing) (bound : BoundStatement) (rs : List Request) (d : Draft) : Prop where
  apart : g.Apart d
  reads : ∀ m ∈ g.inputs, d.parameters.valueOf m = (Parameters.ofBound bound).valueOf m
  inside : ∀ n ∈ rs.filterMap Request.ordinal?, n < g.inputs.length
  found : ∀ n ∈ rs.filterMap Request.ordinal?, some n ∈ d.parameters.origins
  single : (rs.filterMap Request.ordinal?).Nodup

section Steps

variable {g : Sealing} {bound : BoundStatement} {d d' : Draft} {r : Request} {rs : List Request}
  {n : Nat} {e : Error}

theorem sealText_fails {plain : String} (run : (g.sealText plain).Fails d e) :
    ∃ cause, e = .handler cause ∧ ((g.handler.encrypt plain d.supply).1 = .error cause ∨
      g.handler.index plain = .error cause) := by
  simp only [sealText, fails_bind, fails_encrypt, fails_index, fails_pure, and_false, exists_false,
    or_false] at run
  rcases run with ⟨cause, failed, rfl⟩ | ⟨_, _, _, cause, failed, rfl⟩
  · exact ⟨cause, rfl, .inl failed⟩
  · exact ⟨cause, rfl, .inr failed⟩

theorem sealText_answered {plain : String} {sealed : String × String}
    (run : (g.sealText plain).Gives d sealed d') :
    (∃ cipher, (g.handler.encrypt plain d.supply).1 = .ok cipher) ∧
      (∃ index, g.handler.index plain = .ok index) ∧
        d' = { d with supply := (g.handler.encrypt plain d.supply).2 } := by
  simp only [sealText, Seal.gives_bind, gives_encrypt, gives_index, Seal.gives_pure] at run
  obtain ⟨cipher, _, ⟨encrypted, rfl⟩, index, _, ⟨indexed, rfl⟩, -, rfl⟩ := run
  exact ⟨⟨cipher, encrypted⟩, ⟨index, indexed⟩, rfl⟩

/-- A text that is written was answered by both calls, and only the supply is another one. -/
theorem sealedValues_answered {plain : Option String} {pair : Json × Json}
    (run : (g.sealedValues plain).Gives d pair d') :
    (∀ text, plain = some text → (∃ cipher, (g.handler.encrypt text d.supply).1 = .ok cipher) ∧
      ∃ index, g.handler.index text = .ok index) ∧
    d' = { d with supply := encryptedSupply g.handler (some plain) d.supply } := by
  cases plain with
  | none =>
    simp only [sealedValues, Seal.gives_pure] at run
    refine ⟨fun text same => ?_, run.2.symm⟩
    cases same
  | some plain =>
    simp only [sealedValues, Seal.gives_bind, Seal.gives_pure] at run
    obtain ⟨_, _, run, -, rfl⟩ := run
    obtain ⟨encrypted, indexed, rfl⟩ := sealText_answered run
    exact ⟨fun _ same => Option.some.inj same ▸ ⟨encrypted, indexed⟩, rfl⟩

theorem bindPair_reads {target index : Json} (apart : g.Apart d)
    (run : (g.bindPair n target index).Gives d () d') : g.Reads d d' := by
  obtain ⟨supply, _, _, _, -, after⟩ := bindPair_cases run
  have first : ∀ m ∈ g.inputs, (Property.splitRoot m.property).1 ≠ d.supply.freshName.1 :=
    apart d.supply.named (Nat.le_refl _)
  have second : ∀ m ∈ g.inputs,
      (Property.splitRoot m.property).1 ≠ d.supply.freshName.2.freshName.1 :=
    apart (d.supply.named + 1) (Nat.le_succ _)
  refine ⟨?_, fun m input => ?_⟩
  · rw [Apart, supply]
    exact fun i later => apart i (Nat.le_trans (Nat.le_add_right _ 2) later)
  · rw [after]
    refine Parameters.valueOf_congr rfl ?_
    rw [Members.get?_insert, if_neg (second m input), Members.get?_insert, if_neg (first m input)]

theorem bindPair_not_fails {target index : Json} (found : some n ∈ d.parameters.origins) :
    ¬ (g.bindPair n target index).Fails d e := by
  obtain ⟨_, gives, -⟩ := bindPair_gives (g := g) found target index
  exact gives.not_fails e

theorem bindPair_kept {target index : Json} (run : (g.bindPair n target index).Gives d () d')
    {j : Nat} (other : j ≠ n) (found : some j ∈ d.parameters.origins) :
    some j ∈ d'.parameters.origins := by
  obtain ⟨-, before, slot, behind, split, after⟩ := bindPair_cases run
  simp only [Parameters.origins, split.slots, List.map_append, List.map_cons, List.mem_append,
    List.mem_cons, split.origin, Option.some.injEq, other, false_or] at found
  simp only [Parameters.origins, after, List.map_append, List.mem_append]
  exact found.imp .inl id

theorem indexPlaceholder_kept (run : (g.indexPlaceholder n).Gives d () d') :
    d'.parameters.origins = d.parameters.origins := by
  obtain ⟨_, _, -, -, ended⟩ := compare_cases run
  rcases ended with ⟨-, rfl⟩ | ⟨_, _, -, -, -, ⟨-, same⟩ | ⟨before, slot, behind, split, after⟩⟩
  · rfl
  · rw [same]
  · simp [Parameters.origins, after, split.slots, split.origin]

/-- A request for a placeholder reads what it was bound to at the start. -/
theorem Poised.value (poised : g.Poised bound rs d) (inputs : g.inputs = bound.mappings)
    (asked : n ∈ rs.filterMap Request.ordinal?) :
    ∃ m, g.inputs[n]? = some m ∧
      operandPlain? bound (.placeholder n) = (d.parameters.valueOf m).plain? := by
  have inside := poised.inside n asked
  have known : g.inputs[n]? = some g.inputs[n] := List.getElem?_eq_getElem inside
  refine ⟨_, known, ?_⟩
  rw [operandPlain?, inputValue, ← inputs, known, poised.reads _ (List.mem_of_getElem? known)]
  rfl

section Placeholders

variable {β : Type} {f : Option String → Seal β} {b : β} (poised : g.Poised bound rs d)
  (inputs : g.inputs = bound.mappings) (asked : n ∈ rs.filterMap Request.ordinal?)

include poised inputs asked

theorem Poised.gives :
    (do f (← plainText (← g.valueAt n))).Gives d b d' ↔
      ∃ plain, operandPlain? bound (.placeholder n) = some plain ∧ (f plain).Gives d b d' := by
  obtain ⟨m, known, plain⟩ := poised.value inputs asked
  simp only [Seal.gives_bind, gives_valueAt, gives_plainText, known, plain, Option.some.injEq,
    exists_eq_left']
  constructor
  · rintro ⟨_, _, ⟨rfl, rfl⟩, plain, _, ⟨read, rfl⟩, run⟩
    exact ⟨plain, read, run⟩
  · rintro ⟨plain, read, run⟩
    exact ⟨_, _, ⟨rfl, rfl⟩, plain, _, ⟨read, rfl⟩, run⟩

theorem Poised.fails :
    (do f (← plainText (← g.valueAt n))).Fails d e ↔
      (operandPlain? bound (.placeholder n) = none ∧ e = .sealing .structuredValue) ∨
        ∃ plain, operandPlain? bound (.placeholder n) = some plain ∧ (f plain).Fails d e := by
  obtain ⟨m, known, plain⟩ := poised.value inputs asked
  simp only [fails_bind, fails_valueAt, gives_valueAt, gives_plainText, fails_plainText, known,
    plain, Option.some.injEq, exists_eq_left', reduceCtorEq, false_and, false_or]
  constructor
  · rintro ⟨_, _, ⟨rfl, rfl⟩, structured | ⟨plain, _, ⟨read, rfl⟩, run⟩⟩
    · exact .inl structured
    · exact .inr ⟨plain, read, run⟩
  · rintro (structured | ⟨plain, read, run⟩)
    · exact ⟨_, _, ⟨rfl, rfl⟩, .inl structured⟩
    · exact ⟨_, _, ⟨rfl, rfl⟩, .inr ⟨plain, _, ⟨read, rfl⟩, run⟩⟩

end Placeholders

theorem sealedValues_fails {plain : Option String} (run : (g.sealedValues plain).Fails d e) :
    ∃ text cause, plain = some text ∧ e = .handler cause ∧
      ((g.handler.encrypt text d.supply).1 = .error cause ∨
        g.handler.index text = .error cause) := by
  cases plain with
  | none => exact absurd run (fails_pure _ _ _)
  | some text =>
    simp only [sealedValues, fails_bind, fails_pure, and_false, exists_false, or_false] at run
    obtain ⟨cause, same, failed⟩ := sealText_fails run
    exact ⟨text, cause, rfl, same, failed⟩

theorem Poised.fault_indexed (poised : g.Poised bound (.index (.placeholder n) :: rs) d)
    (inputs : g.inputs = bound.mappings) (run : (g.indexPlaceholder n).Fails d e) :
    Fault g.handler bound d.supply (.index (.placeholder n)) e := by
  rw [indexPlaceholder, poised.fails inputs List.mem_cons_self] at run
  rcases run with ⟨structured, rfl⟩ | ⟨plain, read, run⟩
  · exact .structured structured
  cases plain with
  | none => exact absurd run (fails_pure _ _ _)
  | some text =>
    simp only [fails_bind, fails_index, fails_freshName, fails_get, false_or] at run
    rcases run with ⟨cause, failed, rfl⟩ | ⟨_, _, _, _, _, _, _, _, _, run⟩
    · exact .refused read (.index failed)
    · split at run
      · exact absurd run (fails_setParameters _ _ _)
      · exact absurd run (fails_pure _ _ _)

theorem Poised.fault_paired (poised : g.Poised bound (.pair (.placeholder n) :: rs) d)
    (inputs : g.inputs = bound.mappings) (run : (g.sealOperand (.placeholder n)).Fails d e) :
    Fault g.handler bound d.supply (.pair (.placeholder n)) e := by
  rw [sealOperand, poised.fails inputs List.mem_cons_self] at run
  rcases run with ⟨structured, rfl⟩ | ⟨plain, read, run⟩
  · exact .structured structured
  simp only [fails_bind, fails_pure, and_false, exists_false, or_false] at run
  rcases run with run | ⟨pair, d', sealed, run⟩
  · obtain ⟨text, cause, rfl, rfl, failed | failed⟩ := sealedValues_fails run
    · exact .refused read (.encrypt failed)
    · exact .refused read (.pairIndex failed)
  -- The slot is still there, so the pair is bound.
  · have found := poised.found n List.mem_cons_self
    obtain rfl := (sealedValues_answered sealed).2
    exact absurd run (bindPair_not_fails found)

/-- The first request fails for no other reason than a fault. -/
theorem Poised.fault (poised : g.Poised bound (r :: rs) d) (inputs : g.inputs = bound.mappings)
    (run : (g.perform r).Fails d e) : Fault g.handler bound d.supply r e := by
  cases r with
  | index operand =>
    cases operand with
    | placeholder n => exact poised.fault_indexed inputs run
    | literal plain =>
      simp only [perform, fails_bind, fails_index, fails_pure, and_false, exists_false,
        or_false] at run
      obtain ⟨cause, failed, rfl⟩ := run
      exact .refused rfl (.index failed)
    | null => exact absurd run (fails_pure _ _ _)
  | pair operand =>
    simp only [perform, fails_bind, fails_pure, and_false, exists_false, or_false] at run
    cases operand with
    | placeholder n => exact poised.fault_paired inputs run
    | literal plain =>
      simp only [sealOperand, fails_bind, fails_pure, and_false, exists_false, or_false] at run
      obtain ⟨cause, rfl, failed | failed⟩ := sealText_fails run
      · exact .refused rfl (.encrypt failed)
      · exact .refused rfl (.pairIndex failed)
    | null => exact absurd run (fails_pure _ _ _)

/-- What a request that succeeds tells, and what it leaves. -/
structure Performed (g : Sealing) (bound : BoundStatement) (r : Request) (d d' : Draft) : Prop where
  sound : ∀ e, ¬ Fault g.handler bound d.supply r e
  supply : d'.supply = supplyAfter g.handler bound d.supply r
  reads : g.Reads d d'
  kept : ∀ n, r.ordinal? ≠ some n → some n ∈ d.parameters.origins → some n ∈ d'.parameters.origins

theorem Fault.absurd_index {operand : Operand} {s : Supply} {plain : Option String}
    (read : operandPlain? bound operand = some plain)
    (answered : ∀ text, plain = some text → ∃ index, g.handler.index text = .ok index) (e : Error) :
    ¬ Fault g.handler bound s (.index operand) e := by
  rintro (structured | ⟨same, refuses⟩)
  · rw [Request.operand, read] at structured
    cases structured
  · rw [Request.operand, read] at same
    obtain ⟨index, indexed⟩ := answered _ (Option.some.inj same)
    cases refuses with
    | index failed =>
      rw [indexed] at failed
      cases failed

theorem Fault.absurd_pair {operand : Operand} {s : Supply} {plain : Option String}
    (read : operandPlain? bound operand = some plain)
    (answered : ∀ text, plain = some text → (∃ cipher, (g.handler.encrypt text s).1 = .ok cipher) ∧
      ∃ index, g.handler.index text = .ok index) (e : Error) :
    ¬ Fault g.handler bound s (.pair operand) e := by
  rintro (structured | ⟨same, refuses⟩)
  · rw [Request.operand, read] at structured
    cases structured
  · rw [Request.operand, read] at same
    obtain ⟨⟨cipher, encrypted⟩, index, indexed⟩ := answered _ (Option.some.inj same)
    cases refuses with
    | encrypt failed =>
      rw [encrypted] at failed
      cases failed
    | pairIndex failed =>
      rw [indexed] at failed
      cases failed

theorem encryptedSupply_sameNames (handler : Handler) (plain : Option (Option String))
    (s : Supply) : s.SameNames (encryptedSupply handler plain s) := by
  unfold encryptedSupply
  split
  · exact handler.encrypt_sameNames _ s
  · exact .refl s

theorem Reads.supplied {s : Supply} (apart : g.Apart d) (names : d.supply.SameNames s) :
    g.Reads d { d with supply := s } := by
  refine ⟨fun i later m input => ?_, fun _ _ => rfl⟩
  rw [names.1]
  exact apart i (names.2 ▸ later) m input

theorem Performed.supplied {s : Supply} (apart : g.Apart d) (names : d.supply.SameNames s)
    (sound : ∀ e, ¬ Fault g.handler bound d.supply r e)
    (supply : s = supplyAfter g.handler bound d.supply r) :
    Performed g bound r d { d with supply := s } :=
  ⟨sound, supply, .supplied apart names, fun _ _ found => found⟩

theorem Poised.performed_indexed (poised : g.Poised bound (.index (.placeholder n) :: rs) d)
    (inputs : g.inputs = bound.mappings) (run : (g.indexPlaceholder n).Gives d () d') :
    Performed g bound (.index (.placeholder n)) d d' := by
  have reads := indexPlaceholder_reads poised.apart run
  have kept := indexPlaceholder_kept run
  rw [indexPlaceholder, poised.gives inputs List.mem_cons_self] at run
  obtain ⟨plain, read, run⟩ := run
  cases plain with
  | none =>
    obtain ⟨-, rfl⟩ := (Seal.gives_pure _ _ _ _).mp run
    refine ⟨Fault.absurd_index read ?_, ?_, reads, fun _ _ => kept ▸ id⟩
    · rintro _ ⟨⟩
    · rw [supplyAfter, read]
  | some text =>
    simp only [Seal.gives_bind, gives_index, Seal.gives_freshName, Seal.gives_get] at run
    obtain ⟨index, _, ⟨indexed, rfl⟩, _, _, ⟨rfl, rfl⟩, _, _, ⟨rfl, rfl⟩, run⟩ := run
    refine ⟨Fault.absurd_index read ?_, ?_, reads, fun _ _ => kept ▸ id⟩
    · rintro _ ⟨⟩
      exact ⟨index, indexed⟩
    · rw [supplyAfter, read]
      split at run
      · obtain rfl := (Seal.gives_setParameters _ _ _ _).mp run
        rfl
      · obtain ⟨-, rfl⟩ := (Seal.gives_pure _ _ _ _).mp run
        rfl

theorem Poised.performed_paired (poised : g.Poised bound (.pair (.placeholder n) :: rs) d)
    (inputs : g.inputs = bound.mappings) {pair : Expr Nat × Expr Nat}
    (run : (g.sealOperand (.placeholder n)).Gives d pair d') :
    Performed g bound (.pair (.placeholder n)) d d' := by
  rw [sealOperand, poised.gives inputs List.mem_cons_self] at run
  obtain ⟨plain, read, run⟩ := run
  simp only [Seal.gives_bind, Seal.gives_pure] at run
  obtain ⟨values, d₁, sealed, _, d₂, bind, -, rfl⟩ := run
  obtain ⟨answered, rfl⟩ := sealedValues_answered sealed
  have sound := Fault.absurd_pair (s := d.supply) read answered
  have first : g.Reads d { d with supply := encryptedSupply g.handler (some plain) d.supply } :=
    .supplied poised.apart (encryptedSupply_sameNames _ _ _)
  refine ⟨sound, ?_, first.trans (bindPair_reads first.apart bind), fun j other => ?_⟩
  · rw [(bindPair_cases bind).1, supplyAfter, read]
  · exact bindPair_kept bind fun same => other (congrArg some same).symm

theorem Poised.performed (poised : g.Poised bound (r :: rs) d) (inputs : g.inputs = bound.mappings)
    (run : (g.perform r).Gives d () d') : Performed g bound r d d' := by
  cases r with
  | index operand =>
    cases operand with
    | placeholder n => exact poised.performed_indexed inputs run
    | literal plain =>
      simp only [perform, Seal.gives_bind, gives_index, Seal.gives_pure] at run
      obtain ⟨index, _, ⟨indexed, rfl⟩, -, rfl⟩ := run
      refine .supplied poised.apart (.refl _) (Fault.absurd_index rfl ?_) rfl
      rintro _ ⟨⟩
      exact ⟨index, indexed⟩
    | null =>
      obtain ⟨-, rfl⟩ := (Seal.gives_pure _ _ _ _).mp run
      refine .supplied poised.apart (.refl _) (Fault.absurd_index rfl ?_) rfl
      rintro _ ⟨⟩
  | pair operand =>
    simp only [perform, Seal.gives_bind, Seal.gives_pure] at run
    obtain ⟨_, _, run, -, rfl⟩ := run
    cases operand with
    | placeholder n => exact poised.performed_paired inputs run
    | literal plain =>
      simp only [sealOperand, Seal.gives_bind, Seal.gives_pure] at run
      obtain ⟨_, _, run, -, rfl⟩ := run
      obtain ⟨encrypted, indexed, rfl⟩ := sealText_answered run
      refine .supplied poised.apart (g.handler.encrypt_sameNames _ _) (Fault.absurd_pair rfl ?_) rfl
      rintro _ ⟨⟩
      exact ⟨encrypted, indexed⟩
    | null =>
      obtain ⟨-, rfl⟩ := (Seal.gives_pure _ _ _ _).mp run
      refine .supplied poised.apart (.refl _) (Fault.absurd_pair rfl ?_) rfl
      rintro _ ⟨⟩

end Steps

section Runs

variable {g : Sealing} {bound : BoundStatement} {d d' : Draft} {r : Request} {rs : List Request}
  {e : Error}

theorem Poised.next (poised : g.Poised bound (r :: rs) d) (performed : Performed g bound r d d') :
    g.Poised bound rs d' := by
  have later : (rs.filterMap Request.ordinal?).Sublist ((r :: rs).filterMap Request.ordinal?) :=
    (List.sublist_cons_self r rs).filterMap _
  refine ⟨performed.reads.apart, fun m input => ?_, fun n asked => ?_, fun n asked => ?_, ?_⟩
  · rw [performed.reads.same m input, poised.reads m input]
  · exact poised.inside n (later.subset asked)
  · refine performed.kept n (fun same => ?_) (poised.found n (later.subset asked))
    have single := poised.single
    rw [List.filterMap_cons_some same] at single
    exact (List.nodup_cons.mp single).1 asked
  · exact poised.single.sublist later

/-- A row of requests that fails fails with the fault of one of them. -/
theorem Poised.faults (poised : g.Poised bound rs d) (inputs : g.inputs = bound.mappings)
    (run : (forM rs g.perform).Fails d e) :
    ∃ earlier r later, rs = earlier ++ r :: later ∧
      Fault g.handler bound (earlier.foldl (supplyAfter g.handler bound) d.supply) r e := by
  induction rs generalizing d with
  | nil => exact absurd run (fails_pure _ _ _)
  | cons r rs ih =>
    rw [fails_forM_cons] at run
    rcases run with first | ⟨_, d', gives, later⟩
    · exact ⟨[], r, rs, rfl, poised.fault inputs first⟩
    · have performed := poised.performed inputs gives
      obtain ⟨earlier, r', rest, rfl, fault⟩ := ih (poised.next performed) later
      rw [performed.supply] at fault
      exact ⟨r :: earlier, r', rest, rfl, fault⟩

/-- With a fault anywhere in it a row of requests fails, there or earlier. -/
theorem Poised.fails_of_fault (inputs : g.inputs = bound.mappings) {earlier later : List Request}
    (poised : g.Poised bound (earlier ++ r :: later) d)
    (fault : Fault g.handler bound (earlier.foldl (supplyAfter g.handler bound) d.supply) r e) :
    ∃ e', (forM (earlier ++ r :: later) g.perform).Fails d e' := by
  induction earlier generalizing d with
  | nil =>
    rcases fails_or_gives (g.perform r) d with ⟨e', fails⟩ | ⟨_, d', gives⟩
    · exact ⟨e', (fails_forM_cons _ _ _ _ _).mpr (.inl fails)⟩
    · exact absurd fault ((poised.performed inputs gives).sound e)
  | cons r' earlier ih =>
    rcases fails_or_gives (g.perform r') d with ⟨e', fails⟩ | ⟨_, d', gives⟩
    · exact ⟨e', (fails_forM_cons _ _ _ _ _).mpr (.inl fails)⟩
    · have performed := poised.performed inputs gives
      rw [List.foldl_cons, ← performed.supply] at fault
      obtain ⟨e', fails⟩ := ih (poised.next performed) fault
      exact ⟨e', (fails_forM_cons _ _ _ _ _).mpr (.inr ⟨(), d', gives, fails⟩)⟩

theorem inside_of_requests {t : Statement} (counted : t.countAnonymous = bound.mappings.length)
    {n : Nat} (asked : n ∈ (g.requests t.number.1).filterMap Request.ordinal?) :
    n < bound.mappings.length := by
  rw [ordinals_requests] at asked
  have present := (within_acts t.number.1).mem asked
  rw [t.origins_number, counted] at present
  simpa using present

theorem poised_start {t : Statement} {supply : Supply} (inputs : g.inputs = bound.mappings)
    (counted : t.countAnonymous = bound.mappings.length)
    (apart : g.Apart (draftOf bound supply)) :
    g.Poised bound (g.requests t.number.1) (draftOf bound supply) := by
  refine ⟨apart, fun _ _ => rfl, fun n asked => inputs ▸ inside_of_requests counted asked,
    fun n asked => ?_, ?_⟩
  · rw [draftOf, Parameters.origins_ofBound]
    simpa using inside_of_requests counted asked
  · rw [ordinals_requests]
    exact (within_acts t.number.1).nodup t.once_number

end Runs

/-- A placeholder that is paired or indexed is bound to an array or an object. An output parameter
is bound to nothing. -/
def BoundStructured (g : Sealing) (bound : BoundStatement) (t : Statement Nat) : Prop :=
  ∃ r ∈ g.requests t, ∃ n m, r.operand = .placeholder n ∧ bound.mappings[n]? = some m ∧
    m.mode ≠ .output ∧ ((Parameters.ofBound bound).valueOf m).Structured

/-- The handler fails with a text that it is asked for, after all requests before it. -/
def Refused (g : Sealing) (bound : BoundStatement) (supply : Supply) (t : Statement Nat)
    (cause : HandlerError) : Prop :=
  ∃ earlier r later text, g.requests t = earlier ++ r :: later ∧
    operandPlain? bound r.operand = some (some text) ∧
    g.handler.Refuses text (earlier.foldl (supplyAfter g.handler bound) supply) r cause

end Sealing

theorem Parameters.mode_of_structured {p : Parameters} {m : ParameterMapping}
    (structured : (p.valueOf m).Structured) : m.mode ≠ .output := by
  intro output
  rw [Parameters.valueOf, if_pos output] at structured
  cases structured

section Ends

open Sealing

variable {active : ActiveColumns} {handler : Handler} {options : SealOptions}
  {resultMaps : List ResultMap} {bound : BoundStatement} {t : Statement} {supply : Supply}
  {e : Error} {g : Sealing}

theorem sealBound_fails (counted : t.countAnonymous = bound.mappings.length) :
    let g : Sealing := ⟨active, handler, options, resultMaps, bound.mappings⟩
    (sealBound active handler options resultMaps bound t supply).1 = .error e ↔
      (forM (g.requests t.number.1) g.perform).Fails (draftOf bound supply) e := by
  intro g
  have agree := (sealTree_asks (g := g) t.number.1) (draftOf bound supply) _ ⟨rfl, rfl⟩
  generalize run : (g.sealTree t.number.1).run (draftOf bound supply) = r,
    run' : (forM (g.requests t.number.1) g.perform).run (draftOf bound supply) = r' at agree
  rw [Fails, run']
  cases agree with
  | fails e' d d' =>
    rw [sealBound_error counted run]
    constructor
    · rintro ⟨⟩
      exact ⟨d', rfl⟩
    · rintro ⟨_, ⟨⟩⟩
      rfl
  | gives _ _ =>
    rw [sealBound_emits counted run]
    constructor
    · rintro ⟨⟩
    · rintro ⟨_, ⟨⟩⟩

/-- With as many placeholders as mappings, an operand that is asked for has no text only as a
placeholder that is bound to an array or an object. -/
theorem operandPlain?_eq_none (counted : t.countAnonymous = bound.mappings.length) {r : Request}
    (asked : r ∈ g.requests t.number.1) : operandPlain? bound r.operand = none ↔
      ∃ n m, r.operand = .placeholder n ∧ bound.mappings[n]? = some m ∧ m.mode ≠ .output ∧
        ((Parameters.ofBound bound).valueOf m).Structured := by
  constructor
  · intro unread
    cases operand : r.operand with
    | literal text =>
      rw [operand] at unread
      cases unread
    | null =>
      rw [operand] at unread
      cases unread
    | placeholder n =>
      have listed : n ∈ (g.requests t.number.1).filterMap Request.ordinal? :=
        List.mem_filterMap.mpr ⟨r, asked, by rw [Request.ordinal?, operand, Operand.ordinal?]⟩
      have inside := inside_of_requests counted listed
      have known : bound.mappings[n]? = some bound.mappings[n] := List.getElem?_eq_getElem inside
      rw [operand, operandPlain?, inputValue, known, Option.map_some, Option.bind_some,
        Json.plain?_eq_none] at unread
      exact ⟨n, _, rfl, known, Parameters.mode_of_structured unread, unread⟩
  · rintro ⟨n, m, operand, known, -, structured⟩
    rw [operand, operandPlain?, inputValue, known, Option.map_some, Option.bind_some,
      Json.plain?_eq_none]
    exact structured

theorem fault_known (counted : t.countAnonymous = bound.mappings.length)
    {earlier later : List Request} {r : Request}
    (split : g.requests t.number.1 = earlier ++ r :: later)
    (fault : Fault g.handler bound (earlier.foldl (supplyAfter g.handler bound) supply) r e) :
    (e = .sealing .structuredValue ∧ g.BoundStructured bound t.number.1) ∨
      ∃ cause, e = .handler cause ∧ g.Refused bound supply t.number.1 cause := by
  have asked : r ∈ g.requests t.number.1 := by simp [split]
  cases fault with
  | structured unread =>
    exact .inl ⟨rfl, r, asked, (operandPlain?_eq_none counted asked).mp unread⟩
  | refused read refuses => exact .inr ⟨_, rfl, earlier, r, later, _, split, read, refuses⟩

theorem exists_fault (counted : t.countAnonymous = bound.mappings.length)
    (known : g.BoundStructured bound t.number.1 ∨
      ∃ cause, g.Refused bound supply t.number.1 cause) :
    ∃ e earlier r later, g.requests t.number.1 = earlier ++ r :: later ∧
      Fault g.handler bound (earlier.foldl (supplyAfter g.handler bound) supply) r e := by
  rcases known with ⟨r, asked, structured⟩ | ⟨cause, earlier, r, later, text, split, read, refuses⟩
  · obtain ⟨earlier, later, split⟩ := List.append_of_mem asked
    exact ⟨_, earlier, r, later, split,
      .structured ((operandPlain?_eq_none counted asked).mpr structured)⟩
  · exact ⟨_, earlier, r, later, split, .refused read refuses⟩

end Ends

section Passes

variable {active : ActiveColumns} {handler : Handler} {options : SealOptions}
  {resultMaps : List ResultMap} {bound : BoundStatement} {t : Statement} {supply : Supply}
  (apart : Sealing.Apart ⟨active, handler, options, resultMaps, bound.mappings⟩
    (Sealing.draftOf bound supply))

include apart

theorem sealBound_error_known {e : Error}
    (failed : (sealBound active handler options resultMaps bound t supply).1 = .error e) :
    let g : Sealing := ⟨active, handler, options, resultMaps, bound.mappings⟩
    (e = .sealing (.placeholderCount t.countAnonymous bound.mappings.length) ∧
      t.countAnonymous ≠ bound.mappings.length) ∨
    (e = .sealing .structuredValue ∧ g.BoundStructured bound t.number.1) ∨
    ∃ cause, e = .handler cause ∧ g.Refused bound supply t.number.1 cause := by
  intro g
  by_cases counted : t.countAnonymous = bound.mappings.length
  · obtain ⟨earlier, r, later, split, fault⟩ :=
      (Sealing.poised_start rfl counted apart).faults rfl ((sealBound_fails counted).mp failed)
    exact .inr (fault_known counted split fault)
  · rw [sealBound_miscounted counted] at failed
    cases failed
    exact .inl ⟨rfl, counted⟩

theorem exists_sealBound_error (counted : t.countAnonymous = bound.mappings.length)
    (known : Sealing.BoundStructured ⟨active, handler, options, resultMaps, bound.mappings⟩ bound
        t.number.1 ∨
      ∃ cause, Sealing.Refused ⟨active, handler, options, resultMaps, bound.mappings⟩ bound supply
        t.number.1 cause) :
    ∃ e, (sealBound active handler options resultMaps bound t supply).1 = .error e := by
  obtain ⟨_, earlier, r, later, split, fault⟩ := exists_fault counted known
  have poised := Sealing.poised_start rfl counted apart
  rw [split] at poised
  obtain ⟨e, fails⟩ := poised.fails_of_fault rfl fault
  exact ⟨e, (sealBound_fails counted).mpr (split ▸ fails)⟩

end Passes

/-- Whether a text is encrypted is a matter of the text, not of the bytes that are drawn for it. -/
def Handler.TextDecides (handler : Handler) : Prop :=
  ∀ text s s' cause, (handler.encrypt text s).1 = .error cause →
    ∃ cause', (handler.encrypt text s').1 = .error cause'

/-- When a pass fails, and how. -/
structure FailsExactly (g : Sealing) (bound : BoundStatement) (t : Statement) (supply : Supply)
    (result : Except Error Sealed) : Prop where
  fails : (∃ e, result = .error e) ↔
    t.countAnonymous ≠ bound.mappings.length ∨ g.BoundStructured bound t.number.1 ∨
      ∃ cause, g.Refused bound supply t.number.1 cause
  /-- No other error is reached. -/
  errors : ∀ e, result = .error e →
    (e = .sealing (.placeholderCount t.countAnonymous bound.mappings.length) ∧
      t.countAnonymous ≠ bound.mappings.length) ∨
    (e = .sealing .structuredValue ∧ g.BoundStructured bound t.number.1) ∨
    ∃ cause, e = .handler cause ∧ g.Refused bound supply t.number.1 cause
  /-- What is asked for is a matter of the tree, the active columns and the options. -/
  determined : ∀ g' : Sealing, g'.active = g.active → g'.options = g.options →
    g'.requests t.number.1 = g.requests t.number.1
  /-- If the text decides, it does not matter what is asked for before it. -/
  texts : g.handler.TextDecides →
    ((∃ cause, g.Refused bound supply t.number.1 cause) ↔
      ∃ r ∈ g.requests t.number.1, ∃ text s cause,
        Sealing.operandPlain? bound r.operand = some (some text) ∧
          g.handler.Refuses text s r cause)
  /-- A row is read within its length: rows are sealed only if each one is as wide as the column
  list. -/
  ranges : ∀ x, t.number.1 = .insert x → x.columns ≠ [] →
    (g.sealInsert x).Idles x ∨ ∃ rows, Sealing.rowsOf? x.source = some rows ∧
      g.sealInsert x = g.sealInsertRows x rows ∧
      ∀ row ∈ rows, ∀ place ∈ x.columns.zipIdx, place.2 < row.length

section Requests

variable {g : Sealing} {bound : BoundStatement} {supply : Supply}

theorem Handler.Refuses.any_supply {handler : Handler} {text : String} {s : Supply} {r : Request}
    {cause : HandlerError} (refuses : handler.Refuses text s r cause)
    (decides : handler.TextDecides) (s' : Supply) :
    ∃ cause', handler.Refuses text s' r cause' := by
  cases refuses with
  | index failed => exact ⟨cause, .index failed⟩
  | encrypt failed =>
    obtain ⟨cause', failed'⟩ := decides text s s' cause failed
    exact ⟨cause', .encrypt failed'⟩
  | pairIndex failed => exact ⟨cause, .pairIndex failed⟩

theorem Sealing.refused_iff {t : Statement Nat} (decides : g.handler.TextDecides) :
    (∃ cause, g.Refused bound supply t cause) ↔
      ∃ r ∈ g.requests t, ∃ text s cause, operandPlain? bound r.operand = some (some text) ∧
        g.handler.Refuses text s r cause := by
  constructor
  · rintro ⟨cause, earlier, r, later, text, split, read, refuses⟩
    exact ⟨r, by simp [split], text, _, cause, read, refuses⟩
  · rintro ⟨r, asked, text, s, cause, read, refuses⟩
    obtain ⟨earlier, later, split⟩ := List.append_of_mem asked
    obtain ⟨cause', refuses'⟩ := refuses.any_supply decides
      (earlier.foldl (supplyAfter g.handler bound) supply)
    exact ⟨cause', earlier, r, later, text, split, read, refuses'⟩

/-- Rows are sealed only if each one is as wide as the column list. -/
theorem Sealing.sealInsert_inside (x : Insert Nat) (listed : x.columns ≠ []) :
    (g.sealInsert x).Idles x ∨ ∃ rows, rowsOf? x.source = some rows ∧
      g.sealInsert x = g.sealInsertRows x rows ∧
      ∀ row ∈ rows, ∀ place ∈ x.columns.zipIdx, place.2 < row.length := by
  cases g.sealInsert_pass x with
  | assigned bare _ _ => exact absurd bare listed
  | left _ idle _ => exact .inl idle
  | rows _ found width run _ =>
    refine .inr ⟨_, found, run, fun row member place inside => ?_⟩
    rw [width row member]
    have bounded := (List.mem_zipIdx inside).2.1
    omega

end Requests

/-- A pass fails exactly when there are not as many placeholders as mappings, when it is to seal an
array or an object, or when the handler fails with a text that it is asked for. No name that is
drawn is the root of a property of the input, so that what the input binds is read as it was. -/
theorem failures_exact (active : ActiveColumns) (handler : Handler) (options : SealOptions)
    (resultMaps : List ResultMap) (bound : BoundStatement) (t : Statement) (supply : Supply)
    (apart : ∀ i, supply.named ≤ i → ∀ m ∈ bound.mappings,
      (Property.splitRoot m.property).1 ≠ supply.name i) :
    FailsExactly ⟨active, handler, options, resultMaps, bound.mappings⟩ bound t supply
      (sealBound active handler options resultMaps bound t supply).1 := by
  refine ⟨⟨?_, ?_⟩, fun e failed => sealBound_error_known apart failed, ?_, Sealing.refused_iff, ?_⟩
  · rintro ⟨e, failed⟩
    rcases sealBound_error_known apart failed with
      ⟨-, miscounted⟩ | ⟨-, structured⟩ | ⟨cause, -, refused⟩
    · exact .inl miscounted
    · exact .inr (.inl structured)
    · exact .inr (.inr ⟨cause, refused⟩)
  · intro known
    by_cases counted : t.countAnonymous = bound.mappings.length
    · exact exists_sealBound_error apart counted (known.resolve_left (not_not.mpr counted))
    · exact ⟨_, sealBound_miscounted counted⟩
  · exact fun g' same same' => Sealing.requests_congr same same' t.number.1
  · exact fun x _ listed => Sealing.sealInsert_inside x listed

namespace Sample

/-- The mail address is bound to an array. -/
def listBound : BoundStatement :=
  { bound with object := .object [("email", .array []), ("id", .string "7")] }

end Sample

open Sample in
theorem failures_exact_array :
    (∀ i, supply.named ≤ i → ∀ m ∈ listBound.mappings,
      (Property.splitRoot m.property).1 ≠ supply.name i) ∧
    sealing.requests statement.number.1 = [.pair (.placeholder 1)] ∧
    FailsExactly sealing listBound statement supply (.error (.sealing .structuredValue)) := by
  have apart : ∀ i, supply.named ≤ i → ∀ m ∈ listBound.mappings,
      (Property.splitRoot m.property).1 ≠ supply.name i := fresh.roots
  have failed : (sealBound active handler ⟨true, false⟩ [] listBound statement supply).1 =
      .error (.sealing .structuredValue) := by
    with_unfolding_all rfl
  exact ⟨apart, by rfl,
    failed ▸ failures_exact active handler ⟨true, false⟩ [] listBound statement supply apart⟩

end SealedColumns
