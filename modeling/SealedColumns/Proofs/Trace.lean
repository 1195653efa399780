import SealedColumns.Proofs.Act

/-!
Traces of acts, and what a trace makes of the origins of the parameters: in the place of each
ordinal that is written stands a pair without origin, and all else stays where it is.
-/
namespace SealedColumns

def Act.ordinal : Act → Nat
  | .compare n => n
  | .write n => n

def Act.written? : Act → Option Nat
  | .compare _ => none
  | .write n => some n

/-- A pair of anonymous placeholders in the place of each ordinal in `written`, which itself stays
in front of them only if it is kept. -/
def expandOrigins (keep : Bool) (written : List Nat) (os : List (Option Nat)) :
    List (Option Nat) :=
  os.flatMap fun o =>
    match o with
    | none => [none]
    | some n =>
      if n ∈ written then (if keep then [some n] else []) ++ [none, none] else [some n]

/-- No ordinal stands at two places. -/
def Once (os : List (Option Nat)) : Prop := ∀ n, os.count (some n) ≤ 1

/-- The ordinals stand among the origins, each at least as often as it is listed. -/
def Within (ns : List Nat) (os : List (Option Nat)) : Prop := ∀ n, ns.count n ≤ os.count (some n)

section Origins

variable {keep : Bool} {ns ms : List Nat} {os xs ys : List (Option Nat)}

theorem expandOrigins_append :
    expandOrigins keep ns (xs ++ ys) = expandOrigins keep ns xs ++ expandOrigins keep ns ys :=
  List.flatMap_append

theorem expandOrigins_cons (o : Option Nat) :
    expandOrigins keep ns (o :: os) = expandOrigins keep ns [o] ++ expandOrigins keep ns os := by
  rw [← expandOrigins_append, List.singleton_append]

theorem expandOrigins_congr (same : ∀ n, some n ∈ os → (n ∈ ns ↔ n ∈ ms)) :
    expandOrigins keep ns os = expandOrigins keep ms os := by
  induction os with
  | nil => rfl
  | cons o os ih =>
    have head : expandOrigins keep ns [o] = expandOrigins keep ms [o] := by
      cases o with
      | none => rfl
      | some n => simp [expandOrigins, same n List.mem_cons_self]
    have tail := ih fun n found => same n (List.mem_cons_of_mem _ found)
    rw [expandOrigins_cons, head, tail, ← expandOrigins_cons]

theorem expandOrigins_absent (absent : ∀ n ∈ ns, some n ∉ os) :
    expandOrigins keep ns os = os := by
  induction os with
  | nil => rfl
  | cons o os ih =>
    rw [expandOrigins_cons, ih fun n listed found => absent n listed (List.mem_cons_of_mem _ found)]
    cases o with
    | none => rfl
    | some n =>
      have other : n ∉ ns := fun listed => absent n listed List.mem_cons_self
      simp [expandOrigins, other]

@[simp] theorem expandOrigins_none : expandOrigins keep [] os = os :=
  expandOrigins_absent fun _ listed => absurd listed List.not_mem_nil

theorem count_expandOrigins_le (n : Nat) :
    (expandOrigins keep ns os).count (some n) ≤ os.count (some n) := by
  induction os with
  | nil => exact Nat.le_refl _
  | cons o os ih =>
    have split : (o :: os).count (some n) = [o].count (some n) + os.count (some n) := by
      rw [← List.count_append, List.singleton_append]
    rw [expandOrigins_cons, List.count_append, split]
    refine Nat.add_le_add ?_ ih
    cases o with
    | none => exact Nat.le_refl _
    | some m =>
      by_cases listed : m ∈ ns
      · cases keep <;> simp [expandOrigins, listed, List.count_cons]
      · simp [expandOrigins, listed]

theorem Once.expand (once : Once os) : Once (expandOrigins keep ns os) := fun n =>
  Nat.le_trans (count_expandOrigins_le n) (once n)

theorem Once.left (once : Once (xs ++ ys)) : Once xs := fun n => by
  have := once n
  rw [List.count_append] at this
  omega

theorem Once.right (once : Once (xs ++ ys)) : Once ys := fun n => by
  have := once n
  rw [List.count_append] at this
  omega

theorem Once.apart (once : Once (xs ++ ys)) {n : Nat} (left : some n ∈ xs) : some n ∉ ys := by
  intro right
  have := once n
  have := List.count_pos_iff.mpr left
  have := List.count_pos_iff.mpr right
  rw [List.count_append] at *
  omega

theorem Once.apart_cons {n : Nat} (once : Once (some n :: os)) : some n ∉ os := by
  rw [← List.singleton_append] at once
  exact once.apart List.mem_cons_self

theorem Within.nil : Within [] os := fun _ => Nat.zero_le _

theorem Within.mem (inside : Within ns os) {n : Nat} (listed : n ∈ ns) : some n ∈ os := by
  have here := List.count_pos_iff.mpr listed
  exact List.count_pos_iff.mp (Nat.lt_of_lt_of_le here (inside n))

theorem Within.append (left : Within ns xs) (right : Within ms ys) :
    Within (ns ++ ms) (xs ++ ys) := fun n => by
  rw [List.count_append, List.count_append]
  exact Nat.add_le_add (left n) (right n)

theorem Within.nodup (inside : Within ns os) (once : Once os) : ns.Nodup :=
  List.nodup_iff_count.mpr fun n => Nat.le_trans (inside n) (once n)

theorem once_range (k : Nat) : Once ((List.range k).map some) := by
  have distinct : ((List.range k).map some).Nodup :=
    List.pairwise_map.mpr (List.nodup_range.imp fun other same => other (Option.some.inj same))
  exact fun n => List.nodup_iff_count.mp distinct (some n)

theorem expandOrigins_parts (keep : Bool) (once : Once (xs ++ ys)) (left : Within ns xs)
    (right : Within ms ys) :
    expandOrigins keep (ns ++ ms) (xs ++ ys) =
      expandOrigins keep ns xs ++ expandOrigins keep ms ys := by
  rw [expandOrigins_append]
  congr 1
  · apply expandOrigins_congr
    intro n found
    refine List.mem_append.trans (or_iff_left ?_)
    exact fun listed => once.apart found (right.mem listed)
  · apply expandOrigins_congr
    intro n found
    refine List.mem_append.trans (or_iff_right ?_)
    exact fun listed => once.apart (left.mem listed) found

theorem expandOrigins_within (keep : Bool) {zs : List (Option Nat)}
    (once : Once (xs ++ (ys ++ zs))) (inside : Within ns ys) :
    expandOrigins keep ns (xs ++ (ys ++ zs)) = xs ++ (expandOrigins keep ns ys ++ zs) := by
  have front : ∀ n ∈ ns, some n ∉ xs := fun n listed found =>
    once.apart found (List.mem_append_left zs (inside.mem listed))
  have back : ∀ n ∈ ns, some n ∉ zs := fun n listed => once.right.apart (inside.mem listed)
  rw [expandOrigins_append, expandOrigins_append, expandOrigins_absent front,
    expandOrigins_absent back]

theorem expandOrigins_first {n : Nat} (fresh : n ∉ ns) :
    expandOrigins keep ns (expandOrigins keep [n] os) = expandOrigins keep (n :: ns) os := by
  induction os with
  | nil => rfl
  | cons o os ih =>
    have head : expandOrigins keep ns (expandOrigins keep [n] [o]) =
        expandOrigins keep (n :: ns) [o] := by
      cases o with
      | none => rfl
      | some m =>
        by_cases here : m = n
        · subst here
          cases keep <;> simp [expandOrigins, fresh]
        · simp [expandOrigins, here]
    rw [expandOrigins_cons, expandOrigins_append, head, ih, ← expandOrigins_cons]

end Origins

namespace Sealing

variable (g : Sealing)

/-- A run whose acts on the parameters are exactly these, in this order. -/
inductive Trace : List Act → Draft → Draft → Prop where
  | done (d : Draft) : Trace [] d d
  | quiet {acts : List Act} {d d' d'' : Draft} :
      d'.parameters = d.parameters → d.supply.SameNames d'.supply → Trace acts d' d'' →
        Trace acts d d''
  | act {a : Act} {acts : List Act} {d d' d'' : Draft} :
      (g.act a).Gives d () d' → Trace acts d' d'' → Trace (a :: acts) d d''

variable {g}

namespace Trace

variable {first second : List Act} {d d' d'' : Draft}

theorem append (run : g.Trace first d d') (rest : g.Trace second d' d'') :
    g.Trace (first ++ second) d d'' := by
  induction run with
  | done => exact rest
  | quiet parameters names _ ih => exact .quiet parameters names (ih rest)
  | act step _ ih => exact .act step (ih rest)

theorem still (parameters : d'.parameters = d.parameters) (names : d.supply.SameNames d'.supply) :
    g.Trace [] d d' := .quiet parameters names (.done d')

theorem single {a : Act} (step : (g.act a).Gives d () d') : g.Trace [a] d d' :=
  .act step (.done d')

end Trace

/-- What one act makes of the origins. -/
theorem act_origins {a : Act} {d d' : Draft} (once : Once d.parameters.origins)
    (step : (g.act a).Gives d () d') :
    d'.parameters.origins =
      expandOrigins g.options.writeSource a.written?.toList d.parameters.origins := by
  cases a with
  | compare n =>
    simp only [Act.written?, Option.toList_none, expandOrigins_none]
    obtain ⟨_, _, _, _, outcome⟩ := compare_cases step
    obtain ⟨_, rfl⟩ | ⟨_, _, _, _, _, ⟨_, same⟩ | ⟨before, slot, behind, split, after⟩⟩ := outcome
    · rfl
    · rw [same]
    · simp [Parameters.origins, after, split.slots, split.origin]
  | write n =>
    obtain ⟨_, _, _, _, _, _, _, _, before, slot, behind, split, after⟩ := write_cases step
    have parts : d.parameters.origins =
        before.map Slot.origin ++ (some n :: behind.map Slot.origin) := by
      simp [Parameters.origins, split.slots, split.origin]
    rw [parts] at once ⊢
    have front : ∀ m ∈ [n], some m ∉ before.map Slot.origin := by
      intro m listed found
      obtain rfl := List.mem_singleton.mp listed
      exact once.apart found List.mem_cons_self
    have back : ∀ m ∈ [n], some m ∉ behind.map Slot.origin := by
      intro m listed
      obtain rfl := List.mem_singleton.mp listed
      exact once.right.apart_cons
    rw [Act.written?, Option.toList_some, expandOrigins_append, expandOrigins_cons,
      expandOrigins_absent front, expandOrigins_absent back]
    cases keep : g.options.writeSource <;>
      simp [Parameters.origins, after, pairSlots, expandOrigins, keep, split.origin]

/-- What a whole trace makes of the origins. -/
theorem Trace.origins {acts : List Act} {d d' : Draft} (run : g.Trace acts d d')
    (once : Once d.parameters.origins) (single : (acts.filterMap Act.written?).Nodup) :
    d'.parameters.origins =
      expandOrigins g.options.writeSource (acts.filterMap Act.written?) d.parameters.origins := by
  induction run with
  | done => exact expandOrigins_none.symm
  | quiet parameters _ _ ih =>
    rw [← parameters] at once ⊢
    exact ih once single
  | @act a acts d d' d'' step _ ih =>
    have effect := act_origins once step
    have once' : Once d'.parameters.origins := effect ▸ once.expand
    cases a with
    | compare n =>
      simp only [Act.written?, Option.toList_none, expandOrigins_none] at effect
      simp only [List.filterMap_cons, Act.written?] at single ⊢
      rw [ih once' single, effect]
    | write n =>
      simp only [Act.written?, Option.toList_some] at effect
      simp only [List.filterMap_cons, Act.written?, List.nodup_cons] at single ⊢
      rw [ih once' single.2, effect, expandOrigins_first single.1]

end Sealing

end SealedColumns
