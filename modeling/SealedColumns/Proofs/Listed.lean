import SealedColumns.Proofs.Plaintext

/-!
The names of the columns that an INSERT or UPDATE lists. Sealing puts names that entries derive in
the place of those that it expands; where these collide with nothing, the list still names no column
twice.
-/
namespace SealedColumns

open Sql

namespace SensitiveColumn

theorem derives_iff {c : SensitiveColumn} {name : String} :
    c.derives name = true ↔ name = Text.asciiLower c.target ∨ name = Text.asciiLower c.index := by
  rw [derives, Bool.or_eq_true, beq_iff_eq, beq_iff_eq, eq_comm, @eq_comm _ _ name]

end SensitiveColumn

namespace Sql

variable {ν μ σ : Type}

/-- The targets in the column list of a statement, or in its assignments if it has no such list. -/
def Statement.listed : Statement ν → List Target
  | .insert x =>
    if x.columns.isEmpty then x.assignments.map Assignment.target
    else x.columns.map Target.ofIdent
  | .update x => x.assignments.map Assignment.target
  | _ => []

/-- The columns that targets name, in the form in which names are compared. -/
def targetNames (targets : List Target) : List String :=
  (targets.flatMap Target.columns).map Ident.normalized

theorem targetNames_cons (target : Target) (targets : List Target) :
    targetNames (target :: targets) =
      target.columns.map Ident.normalized ++ targetNames targets := by
  simp [targetNames]

theorem targetNames_append (one two : List Target) :
    targetNames (one ++ two) = targetNames one ++ targetNames two := by
  simp [targetNames]

theorem mem_targetNames {targets : List Target} {name : String} :
    name ∈ targetNames targets ↔
      ∃ target ∈ targets, ∃ ident ∈ target.columns, ident.normalized = name := by
  simp only [targetNames, List.mem_map, List.mem_flatMap]
  constructor
  · rintro ⟨ident, ⟨target, member, named⟩, same⟩
    exact ⟨target, member, ident, named, same⟩
  · rintro ⟨target, member, ident, named, same⟩
    exact ⟨ident, ⟨target, member, named⟩, same⟩

theorem targets_walkAssignments (v : Visitor ν μ σ) (as : List (Assignment ν)) (s : σ) :
    (walkAssignments v as s).1.map Assignment.target = as.map Assignment.target := by
  induction as generalizing s with
  | nil => rfl
  | cons a as ih =>
    cases a
    simp only [walkAssignments, Assignment.walk, List.map_cons, ih]

theorem Statement.listed_walk (v : Visitor ν μ σ) (t : Statement ν) (s : σ) :
    (t.walk v s).1.listed = t.listed := by
  cases t with
  | insert x =>
    cases x
    simp only [walk, Insert.walk, listed, targets_walkAssignments]
  | update x =>
    cases x
    simp only [walk, Update.walk, listed, targets_walkAssignments]
  | _ => rfl

end Sql

/-- A column that is listed by itself, and an entry that it stands for. -/
structure Matched (stands : Ident → SensitiveColumn → Prop) (targets : List Target) (ident : Ident)
    (c : SensitiveColumn) : Prop where
  listed : ∃ target ∈ targets, target.column? = some ident
  stands : stands ident c

theorem Matched.cons {stands : Ident → SensitiveColumn → Prop} {targets : List Target}
    {ident : Ident} {c : SensitiveColumn} (matched : Matched stands targets ident c)
    (target : Target) : Matched stands (target :: targets) ident c := by
  obtain ⟨⟨other, member, named⟩, stand⟩ := matched
  exact ⟨⟨other, List.mem_cons_of_mem _ member, named⟩, stand⟩

theorem Matched.mem_targetNames {stands : Ident → SensitiveColumn → Prop} {targets : List Target}
    {ident : Ident} {c : SensitiveColumn} (matched : Matched stands targets ident c) :
    ident.normalized ∈ targetNames targets := by
  obtain ⟨target, member, named⟩ := matched.listed
  refine Sql.mem_targetNames.mpr ⟨target, member, ident, ?_, rfl⟩
  rw [Target.columns_of_column? named]
  exact List.mem_singleton_self ident

/-- The names of a pair of targets that an entry puts in the place of one, or behind it. -/
theorem targetNames_pair {target : Target} {ident : Ident} (named : target.column? = some ident)
    (keep : Bool) (c : SensitiveColumn) (targets : List Target) :
    targetNames ((if keep then [target] else []) ++
        target.rename c.target :: target.rename c.index :: targets) =
      (if keep then [ident.normalized] else []) ++
        Text.asciiLower c.target :: Text.asciiLower c.index :: targetNames targets := by
  have first := Target.columns_of_column? (Target.column?_rename c.target named)
  have second := Target.columns_of_column? (Target.column?_rename c.index named)
  have kept : targetNames (if keep then [target] else []) =
      if keep then [ident.normalized] else [] := by
    cases keep <;> simp [targetNames, Target.columns_of_column? named]
  rw [targetNames_append, targetNames_cons, targetNames_cons, first, second, kept]
  rfl

namespace TargetsExpanded

variable {keep : Bool} {stands : Ident → SensitiveColumn → Prop} {targets targets' : List Target}

/-- A name in the new list is one of the old list, or derived by an entry that a listed column
stands for. -/
theorem name_cases (expanded : TargetsExpanded keep stands targets targets') {name : String}
    (member : name ∈ targetNames targets') :
    name ∈ targetNames targets ∨
      ∃ ident c, Matched stands targets ident c ∧ c.derives name = true := by
  induction expanded with
  | nil => exact .inl member
  | @kept target targets targets' _ ih =>
    rw [targetNames_cons, List.mem_append] at member ⊢
    rcases member with here | later
    · exact .inl (.inl here)
    · rcases ih later with old | ⟨ident, c, matched, derives⟩
      · exact .inl (.inr old)
      · exact .inr ⟨ident, c, matched.cons target, derives⟩
  | @pair target ident c targets targets' named stand _ ih =>
    have matched : Matched stands (target :: targets) ident c :=
      ⟨⟨target, List.mem_cons_self, named⟩, stand⟩
    rw [targetNames_pair named, List.mem_append, List.mem_cons, List.mem_cons] at member
    rcases member with own | rfl | rfl | later
    · refine .inl ?_
      split at own
      · rw [List.mem_singleton.mp own]
        exact matched.mem_targetNames
      · cases own
    · exact .inr ⟨ident, c, matched, SensitiveColumn.derives_iff.mpr (.inl rfl)⟩
    · exact .inr ⟨ident, c, matched, SensitiveColumn.derives_iff.mpr (.inr rfl)⟩
    · rcases ih later with old | ⟨other, c', matched', derives⟩
      · rw [targetNames_cons, List.mem_append]
        exact .inl (.inr old)
      · exact .inr ⟨other, c', matched'.cons target, derives⟩

end TargetsExpanded

/-- What keeps an expansion from naming a column twice: an entry derives two names, none of them
listed, and none that the entry of another listed column derives. -/
structure ExpandsApart (stands : Ident → SensitiveColumn → Prop) (targets : List Target) :
    Prop where
  within : ∀ ident c, Matched stands targets ident c →
    Text.asciiLower c.target ≠ Text.asciiLower c.index
  unlisted : ∀ ident c, Matched stands targets ident c → ∀ name ∈ targetNames targets,
    c.derives name = false
  unshared : ∀ one two c c', Matched stands targets one c → Matched stands targets two c' →
    one.normalized ≠ two.normalized → ∀ name, c.derives name = true → c'.derives name = false

section Apart

variable {keep : Bool} {stands : Ident → SensitiveColumn → Prop} {target : Target}
  {targets targets' : List Target}

theorem ExpandsApart.tail (apart : ExpandsApart stands (target :: targets)) :
    ExpandsApart stands targets := by
  refine ⟨fun ident c matched => apart.within ident c (matched.cons target),
    fun ident c matched name member => ?_, fun one two c c' matched matched' =>
      apart.unshared one two c c' (matched.cons target) (matched'.cons target)⟩
  refine apart.unlisted ident c (matched.cons target) name ?_
  rw [targetNames_cons]
  exact List.mem_append_right _ member

/-- A listed name that does not come again in the rest of the list does not come again where the
rest is expanded. -/
theorem ExpandsApart.listed_once (apart : ExpandsApart stands (target :: targets))
    (rest : TargetsExpanded keep stands targets targets') {name : String}
    (listed : name ∈ targetNames (target :: targets)) (new : name ∉ targetNames targets) :
    name ∉ targetNames targets' := by
  intro later
  rcases rest.name_cases later with old | ⟨ident, c, matched, derives⟩
  · exact new old
  · rw [apart.unlisted ident c (matched.cons target) name listed] at derives
    cases derives

/-- A derived name does not come again, neither as it is listed nor from another entry. -/
theorem ExpandsApart.derived_once (apart : ExpandsApart stands (target :: targets))
    (rest : TargetsExpanded keep stands targets targets') {ident : Ident} {c : SensitiveColumn}
    (matched : Matched stands (target :: targets) ident c)
    (new : ident.normalized ∉ targetNames targets) {name : String}
    (derives : c.derives name = true) : name ∉ targetNames targets' := by
  intro later
  rcases rest.name_cases later with old | ⟨other, c', matched', derives'⟩
  · have listed : name ∈ targetNames (target :: targets) := by
      rw [targetNames_cons]
      exact List.mem_append_right _ old
    rw [apart.unlisted ident c matched name listed] at derives
    cases derives
  · have different : ident.normalized ≠ other.normalized := fun same =>
      new (same ▸ matched'.mem_targetNames)
    rw [apart.unshared ident other c c' matched (matched'.cons target) different name
      derives] at derives'
    cases derives'

end Apart

theorem TargetsExpanded.nodup {keep : Bool} {stands : Ident → SensitiveColumn → Prop}
    {targets targets' : List Target} (expanded : TargetsExpanded keep stands targets targets')
    (apart : ExpandsApart stands targets) (once : (targetNames targets).Nodup) :
    (targetNames targets').Nodup := by
  induction expanded with
  | nil => exact once
  | @kept target targets targets' rest ih =>
    rw [targetNames_cons, List.nodup_append] at once ⊢
    refine ⟨once.1, ih apart.tail once.2.1, fun name here other later => ?_⟩
    rintro rfl
    have listed : name ∈ targetNames (target :: targets) := by
      rw [targetNames_cons]
      exact List.mem_append_left _ here
    exact apart.listed_once rest listed (fun old => once.2.2 name here name old rfl) later
  | @pair target ident c targets targets' named stand rest ih =>
    have matched : Matched stands (target :: targets) ident c :=
      ⟨⟨target, List.mem_cons_self, named⟩, stand⟩
    rw [targetNames_cons, Target.columns_of_column? named] at once
    obtain ⟨new, once⟩ := List.nodup_cons.mp once
    have first := apart.derived_once rest matched new (SensitiveColumn.derives_iff.mpr (.inl rfl))
    have second := apart.derived_once rest matched new (SensitiveColumn.derives_iff.mpr (.inr rfl))
    have pair : (Text.asciiLower c.target :: Text.asciiLower c.index ::
        targetNames targets').Nodup := by
      refine List.nodup_cons.mpr ⟨fun again => ?_, List.nodup_cons.mpr ⟨second, ih apart.tail once⟩⟩
      rcases List.mem_cons.mp again with same | later
      · exact apart.within ident c matched same
      · exact first later
    rw [targetNames_pair named]
    cases keep with
    | false => exact pair
    | true =>
      rw [if_pos rfl, List.singleton_append]
      refine List.nodup_cons.mpr ⟨fun again => ?_, pair⟩
      have underived := apart.unlisted ident c matched _ matched.mem_targetNames
      rw [List.mem_cons, List.mem_cons, ← or_assoc, ← SensitiveColumn.derives_iff,
        underived] at again
      exact again.elim Bool.false_ne_true (apart.listed_once rest matched.mem_targetNames new)

theorem TargetsExpanded.ne_nil {keep : Bool} {stands : Ident → SensitiveColumn → Prop}
    {targets targets' : List Target} (expanded : TargetsExpanded keep stands targets targets')
    (some : targets ≠ []) : targets' ≠ [] := by
  cases expanded with
  | nil => exact absurd rfl some
  | kept _ => exact List.cons_ne_nil _ _
  | pair _ _ _ => exact List.append_ne_nil_of_right_ne_nil _ (List.cons_ne_nil _ _)

namespace Sealing

variable {g : Sealing}

/-- No column that is listed by itself is derived already. -/
def Underived (active : ActiveColumns) (targets : List Target) : Prop :=
  ∀ target ∈ targets, ∀ ident, target.column? = some ident → active.isDerived ident = false

/-- The listed columns stay as they are, or are expanded where none of them is derived already. -/
inductive ListSealed (g : Sealing) (targets : List Target) : List Target → Prop where
  | kept : ListSealed g targets targets
  | expanded {targets' : List Target} : Underived g.active targets →
      TargetsExpanded g.options.writeSource g.WriteStands targets targets' →
        ListSealed g targets targets'

theorem AssignmentsSealed.list {as as' : List (Assignment Nat)} (run : g.AssignmentsSealed as as') :
    g.ListSealed (as.map Assignment.target) (as'.map Assignment.target) := by
  have expanded := run.targets
  cases run with
  | derived _ => exact .kept
  | spliced plain _ =>
    refine .expanded (fun target member ident named => ?_) expanded
    obtain ⟨a, listed, rfl⟩ := List.mem_map.mp member
    have underived := List.any_eq_false.mp plain a listed
    obtain ⟨name, same, last⟩ := Target.column?_eq_some.mp named
    simp only [isDerivedTarget, same, last, Option.any_some] at underived
    exact Bool.eq_false_iff.mpr underived

theorem InsertSealed.list {x x' : Insert Nat} (run : g.InsertSealed x x') :
    g.ListSealed (Statement.insert x).listed (Statement.insert x').listed := by
  cases run with
  | assignments bare assignments =>
    simp only [Statement.listed, bare, List.isEmpty_nil, if_true]
    exact assignments.list
  | kept _ _ => exact .kept
  | @rows rows rows' columns plain _ _ _ =>
    have expanded := expandColumns_targets (g := g) x.columns rows
    have listed : x.columns.map Target.ofIdent ≠ [] := fun none =>
      columns (List.map_eq_nil_iff.mp none)
    have columns' : g.expandColumns x.columns (g.columnSlots x.columns rows) ≠ [] := fun none =>
      expanded.ne_nil listed (List.map_eq_nil_iff.mpr none)
    simp only [Statement.listed, List.isEmpty_eq_false_iff.mpr columns,
      List.isEmpty_eq_false_iff.mpr columns', Bool.false_eq_true, if_false]
    refine .expanded (fun target member ident named => ?_) expanded
    obtain ⟨column, here, rfl⟩ := List.mem_map.mp member
    obtain rfl := Option.some.inj named
    exact Bool.eq_false_iff.mpr (List.any_eq_false.mp plain column here)

theorem TreeSealed.list {t t' : Statement Nat} (run : g.TreeSealed t t') :
    g.ListSealed t.listed t'.listed := by
  cases run with
  | insert insert => exact insert.list
  | update assignments _ => exact assignments.list
  | _ => exact .kept

end Sealing

end SealedColumns
