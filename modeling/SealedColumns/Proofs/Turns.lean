import SealedColumns.Proofs.Cells
import SealedColumns.Rows

/-!
How the properties of a row take their turns. A turn finds the cell of its property, if it has one,
and leaves the row, counts a failure, or puts the plaintext into the cell. No turn adds a cell or
fills one, so the place of a property stays the one that it has in the row at the start.
-/
namespace SealedColumns.Rows

open Property

/-- The place of a property in a row, whatever stands there. -/
def place? (camelCase : Bool) (property : String) (row : Json) : Option Place :=
  if isPath property then segments? property
  else
    match row with
    | .object members => (keyOf? camelCase property members).map fun key => [.key key]
    | _ => none

/-- There is a value other than null at the place. -/
def Filled (row : Json) (place : Place) : Prop :=
  ∃ value, getAt? row place = some value ∧ value ≠ .null

/-- The property has a cell, which is not null, at the place. -/
def Resolves (camelCase : Bool) (row : Json) (property : String) (place : Place) : Prop :=
  place? camelCase property row = some place ∧ Filled row place

/-- A cell that is handed to decryption, and its text. -/
structure Call where
  place : Place
  text : String
deriving DecidableEq

def call? (camelCase : Bool) (property : String) (row : Json) : Option Call := do
  let place ← place? camelCase property row
  let value ← getAt? row place
  let text ← cipherText? value
  some ⟨place, text⟩

/-- A property and the row as it is when its turn comes. -/
structure Turn where
  property : String
  row : Json

variable {handler : Handler} {camelCase : Bool} {property : String} {row row' : Json}
  {place : Place}

section Places

theorem keyOf?_congr {members members' : Members Json} (same : members'.keys = members.keys) :
    keyOf? camelCase property members' = keyOf? camelCase property members := by
  have known : members'.contains property = members.contains property := by
    rw [Bool.eq_iff_iff, Members.contains, Members.contains, Members.get?_isSome_iff,
      Members.get?_isSome_iff, same]
  simp only [keyOf?, known, same]

/-- The place of a property depends on the keys of the row alone. -/
theorem place?_congr (same : row'.outline = row.outline) :
    place? camelCase property row' = place? camelCase property row := by
  unfold place?
  split
  · rfl
  · cases row with
    | object members =>
      cases row' with
      | object members' => simp only [keyOf?_congr (Json.keys_of_outline same)]
      | _ => cases same
    | _ =>
      cases row' with
      | object members' => cases same
      | _ => rfl

theorem isPath_ne_empty (path : isPath property = true) : property ≠ "" := by
  rintro rfl
  cases path

theorem place?_ne_nil (found : place? camelCase property row = some place) : place ≠ [] := by
  unfold place? at found
  split at found
  · exact segments?_ne_nil found
  · split at found
    · obtain ⟨key, -, rfl⟩ := Option.map_eq_some_iff.mp found
      exact List.cons_ne_nil _ _
    · cases found

theorem cell?_eq (camelCase : Bool) (property : String) (row : Json) :
    cell? camelCase property row = (place? camelCase property row).bind (getAt? row) := by
  unfold cell? place?
  split
  · rename_i path
    rw [get?, if_neg (isPath_ne_empty path)]
    rfl
  · cases row with
    | object members =>
      simp only [Option.bind_map]
      exact congrArg _ (funext fun key => (getAt?_key members key).symm)
    | _ => rfl

theorem setCell_eq {new updated : Json} (found : place? camelCase property row = some place)
    (update : updateAt? row new place = some updated) :
    setCell camelCase property new row = updated := by
  unfold place? at found
  unfold setCell
  split at found
  · rename_i path
    rw [if_pos path, update?, if_neg (isPath_ne_empty path), found]
    exact congrArg (Option.getD · row) update
  · rename_i plain
    rw [if_neg plain]
    split at found
    · obtain ⟨key, named, rfl⟩ := Option.map_eq_some_iff.mp found
      obtain ⟨child, child', -, below, rfl⟩ := updateAt?_cons.mp update
      cases below
      simp only [named]
      rfl
    · cases found

end Places

section Cells

theorem cipherText?_eq_none {value : Json} : cipherText? value = none ↔ value = .null := by
  cases value <;> simp [cipherText?]

theorem exists_cipherText? {value : Json} (present : value ≠ .null) :
    ∃ text, cipherText? value = some text :=
  Option.ne_none_iff_exists'.mp (cipherText?_eq_none.not.mpr present)

theorem filled_iff : Filled row place ↔
    ∃ shape, (getAt? row place).map Json.outline = some shape ∧ shape ≠ .null := by
  constructor
  · rintro ⟨value, found, present⟩
    exact ⟨value.outline, congrArg _ found, Json.outline_eq_null.not.mpr present⟩
  · rintro ⟨shape, found, present⟩
    obtain ⟨value, here, rfl⟩ := Option.map_eq_some_iff.mp found
    exact ⟨value, here, Json.outline_eq_null.not.mp present⟩

theorem Filled.congr (filled : Filled row place)
    (same : (getAt? row' place).map Json.outline = (getAt? row place).map Json.outline) :
    Filled row' place := by
  rw [filled_iff, same]
  exact filled_iff.mp filled

/-- A text that is put into a cell fills no other cell. -/
theorem Filled.before {text : String} {other : Place} (after : Filled row' other)
    (written : Written row place (.string text) row') (filled : Filled row place) :
    Filled row other := by
  by_cases below : place <+: other
  · obtain ⟨rest, rfl⟩ := below
    cases rest with
    | nil => rwa [List.append_nil]
    | cons segment rest =>
      obtain ⟨value, found, -⟩ := after
      rw [getAt?_append, written.here] at found
      cases segment <;> cases found
  · exact after.congr (written.outside other below).symm

/-- And it empties none but those inside of the cell. -/
theorem Filled.after {text : String} {other : Place} (filled : Filled row other)
    (written : Written row place (.string text) row') (outside : place <+: other → other = place) :
    Filled row' other := by
  by_cases below : place <+: other
  · rw [outside below]
    exact ⟨_, written.here, Json.noConfusion⟩
  · exact filled.congr (written.outside other below)

theorem call?_eq_some {call : Call} : call? camelCase property row = some call ↔
    place? camelCase property row = some call.place ∧
      ∃ value, getAt? row call.place = some value ∧ cipherText? value = some call.text := by
  simp only [call?, Option.bind_eq_bind, Option.bind_eq_some_iff, Option.some.injEq]
  constructor
  · rintro ⟨place, named, value, found, text, read, rfl⟩
    exact ⟨named, value, found, read⟩
  · rintro ⟨named, value, found, read⟩
    exact ⟨call.place, named, value, found, call.text, read, rfl⟩

theorem resolves_of_call? {call : Call} (made : call? camelCase property row = some call) :
    Resolves camelCase row property call.place := by
  obtain ⟨named, value, found, read⟩ := call?_eq_some.mp made
  refine ⟨named, value, found, fun null => ?_⟩
  rw [cipherText?_eq_none.mpr null] at read
  cases read

theorem exists_call? (resolves : Resolves camelCase row property place) :
    ∃ text, call? camelCase property row = some ⟨place, text⟩ := by
  obtain ⟨named, value, found, present⟩ := resolves
  obtain ⟨text, read⟩ := exists_cipherText? present
  exact ⟨text, call?_eq_some.mpr ⟨named, value, found, read⟩⟩

theorem call?_eq_none : call? camelCase property row = none ↔
    ∀ place, ¬ Resolves camelCase row property place := by
  constructor
  · intro silent place resolves
    obtain ⟨text, made⟩ := exists_call? resolves
    cases silent.symm.trans made
  · intro clear
    by_contra made
    obtain ⟨call, made⟩ := Option.ne_none_iff_exists'.mp made
    exact clear _ (resolves_of_call? made)

theorem cell?_bind_cipherText? (camelCase : Bool) (property : String) (row : Json) :
    (cell? camelCase property row).bind cipherText? =
      (call? camelCase property row).map Call.text := by
  rw [cell?_eq, call?]
  cases place? camelCase property row with
  | none => rfl
  | some place =>
    simp only [Option.bind_eq_bind, Option.bind_some]
    cases getAt? row place with
    | none => rfl
    | some value =>
      simp only [Option.bind_some]
      cases cipherText? value <;> rfl

end Cells

/-- What the turn of a property can do. -/
inductive CellDecrypted (handler : Handler) (camelCase : Bool) (row : Json) (property : String) :
    Outcome Json → Prop where
  | passed : (∀ place, ¬ Resolves camelCase row property place) →
      CellDecrypted handler camelCase row property ⟨row, ⟨0, 0⟩, []⟩
  | kept {call : Call} {fault : HandlerError} : call? camelCase property row = some call →
      handler.decrypt call.text = .error fault →
        CellDecrypted handler camelCase row property ⟨row, ⟨0, 1⟩, [.valueKept]⟩
  | opened {call : Call} {plain : String} {row' : Json} :
      call? camelCase property row = some call → handler.decrypt call.text = .ok plain →
        Written row call.place (.string plain) row' →
          CellDecrypted handler camelCase row property ⟨row', ⟨1, 0⟩, []⟩

theorem decryptCell_decrypted (handler : Handler) (camelCase : Bool) (row : Json)
    (property : String) :
    CellDecrypted handler camelCase row property (decryptCell handler camelCase row property) := by
  unfold decryptCell
  rw [cell?_bind_cipherText?]
  cases made : call? camelCase property row with
  | none => exact .passed (call?_eq_none.mp made)
  | some call =>
    simp only [Option.map_some]
    cases answer : handler.decrypt call.text with
    | error fault => exact .kept made answer
    | ok plain =>
      obtain ⟨named, value, found, -⟩ := call?_eq_some.mp made
      obtain ⟨updated, update⟩ := exists_updateAt? found (.string plain)
      simp only [setCell_eq named update]
      exact .opened made answer (written_of_updateAt? update)

/-- The turns of some properties on a row, one after the other: each does what a turn can do to the
row that the one before it left. -/
inductive RowPasses (handler : Handler) (camelCase : Bool) :
    List String → Json → List Turn → Outcome Json → Prop where
  | done (row : Json) : RowPasses handler camelCase [] row [] ⟨row, ⟨0, 0⟩, []⟩
  | turn {property : String} {rest : List String} {row : Json} {turns : List Turn}
      {first others : Outcome Json} : CellDecrypted handler camelCase row property first →
        RowPasses handler camelCase rest first.value turns others →
          RowPasses handler camelCase (property :: rest) row (⟨property, row⟩ :: turns)
            ⟨others.value, first.report.add others.report, first.log ++ others.log⟩

def turns (handler : Handler) (camelCase : Bool) : List String → Json → List Turn
  | [], _ => []
  | property :: rest, row =>
    ⟨property, row⟩ ::
      turns handler camelCase rest (decryptCell handler camelCase row property).value

theorem decryptRow_passes (handler : Handler) (camelCase : Bool) (properties : List String)
    (row : Json) : RowPasses handler camelCase properties row
      (turns handler camelCase properties row) (decryptRow handler camelCase properties row) := by
  induction properties generalizing row with
  | nil => exact .done row
  | cons property rest ih =>
    exact .turn (decryptCell_decrypted handler camelCase row property) (ih _)

section Steps

variable {first : Outcome Json} {other : Place}

theorem CellDecrypted.frame (turn : CellDecrypted handler camelCase row property first)
    (clear : ∀ place, Resolves camelCase row property place → ¬ place <+: other) :
    (getAt? first.value other).map Json.outline = (getAt? row other).map Json.outline := by
  cases turn with
  | passed | kept => rfl
  | opened made _ written => exact written.outside other (clear _ (resolves_of_call? made))

theorem CellDecrypted.outline (turn : CellDecrypted handler camelCase row property first) :
    first.value.outline = row.outline := by
  have root : (getAt? first.value []).map Json.outline = (getAt? row []).map Json.outline := by
    apply turn.frame
    intro place resolves above
    exact place?_ne_nil resolves.1 (List.prefix_nil.mp above)
  exact Option.some.inj root

theorem CellDecrypted.apart (turn : CellDecrypted handler camelCase row property first)
    (beside : ∀ place, Resolves camelCase row property place →
      ¬ place <+: other ∧ ¬ other <+: place) :
    getAt? first.value other = getAt? row other := by
  cases turn with
  | passed | kept => rfl
  | opened made _ written =>
    obtain ⟨ahead, behind⟩ := beside _ (resolves_of_call? made)
    exact written.apart other ahead behind

/-- What a property has after a turn it had before. -/
theorem CellDecrypted.resolves {asked : String}
    (turn : CellDecrypted handler camelCase row property first)
    (after : Resolves camelCase first.value asked other) : Resolves camelCase row asked other := by
  obtain ⟨named, filled⟩ := after
  refine ⟨(place?_congr turn.outline).symm.trans named, ?_⟩
  cases turn with
  | passed | kept => exact filled
  | opened made _ written => exact filled.before written (resolves_of_call? made).2

theorem CellDecrypted.filled (turn : CellDecrypted handler camelCase row property first)
    (before : Filled row other)
    (outside : ∀ place, Resolves camelCase row property place → place <+: other → place = other) :
    Filled first.value other := by
  cases turn with
  | passed | kept => exact before
  | opened made _ written =>
    exact before.after written fun below => (outside _ (resolves_of_call? made) below).symm

end Steps

section Runs

variable {properties : List String} {turns : List Turn} {outcome : Outcome Json}

theorem RowPasses.map_property (passes : RowPasses handler camelCase properties row turns outcome) :
    turns.map Turn.property = properties := by
  induction passes with
  | done => rfl
  | turn _ _ ih => exact congrArg _ ih

/-- All that lies outside of the cells that the properties have in the row at the start stays. -/
theorem RowPasses.frame (passes : RowPasses handler camelCase properties row turns outcome)
    {cell : Place} (clear : ∀ property ∈ properties, ∀ place,
      Resolves camelCase row property place → ¬ place <+: cell) :
    (getAt? outcome.value cell).map Json.outline = (getAt? row cell).map Json.outline := by
  induction passes with
  | done => rfl
  | turn first _ ih =>
    have later := ih fun property listed place resolves =>
      clear property (List.mem_cons_of_mem _ listed) place (first.resolves resolves)
    exact later.trans (first.frame (clear _ List.mem_cons_self))

theorem RowPasses.outline (passes : RowPasses handler camelCase properties row turns outcome) :
    outcome.value.outline = row.outline := by
  have root : (getAt? outcome.value []).map Json.outline = (getAt? row []).map Json.outline := by
    apply passes.frame
    intro property _ place resolves above
    exact place?_ne_nil resolves.1 (List.prefix_nil.mp above)
  exact Option.some.inj root

end Runs

end SealedColumns.Rows
