import Mathlib.Data.List.Basic
import SealedColumns.Proofs.Members
import SealedColumns.Proofs.Slots

/-!
Parameters under any sequence of edits. A slot that stands for a mapping of the input keeps its
ordinal until it is removed, the ordinals stay in rising order, and each edit reaches the one slot
that its anchor designates.
-/
namespace SealedColumns

/-- What can be asked of parameters that changes them. -/
inductive Edit where
  | add (property : String) (value : Json)
  | addAfter (property : String) (value : Json) (anchor : Anchor) (offset : Nat)
  | replace (property : String) (value : Option Json) (anchor : Anchor)
  | remove (anchor : Anchor)
  | setValue (mapping : ParameterMapping) (value : Json)

namespace Parameters

def edit? (p : Parameters) : Edit → Option Parameters
  | .add property value => some (p.add property value)
  | .addAfter property value anchor offset => p.addAfter? property value anchor offset
  | .replace property value anchor => p.replace? property value anchor
  | .remove anchor => (p.remove? anchor).map Prod.snd
  | .setValue mapping value => p.setValueOf? mapping value

/-- An edit that is refused leaves the parameters as they are. -/
def edit (p : Parameters) (e : Edit) : Parameters := (p.edit? e).getD p

def edited (p : Parameters) (edits : List Edit) : Parameters := edits.foldl edit p

/-- The edits of a run, each with the parameters it was made on. -/
def calls (p : Parameters) : List Edit → List (Parameters × Edit)
  | [] => []
  | e :: edits => (p, e) :: (p.edit e).calls edits

def designated? (p : Parameters) (anchor : Anchor) : Option Slot := do
  p.slots[← p.position? anchor]?

/-- The ordinal of the mapping that a call removes. -/
def removal? : Parameters × Edit → Option Nat
  | (p, .remove anchor) => (p.designated? anchor).bind Slot.origin
  | _ => none

/-- The ordinal that a call binds anew, and the property it is bound to. -/
def rebinding? : Parameters × Edit → Option (Nat × String)
  | (p, .replace property (some _) anchor) =>
    ((p.designated? anchor).bind Slot.origin).map fun n => (n, property)
  | _ => none

def lastRebinding? (calls : List (Parameters × Edit)) (n : Nat) : Option String :=
  ((calls.filterMap rebinding?).filter (·.1 == n)).getLast?.map Prod.snd

/-- What a mapping of the input is bound to after the calls. -/
def standing? (bound : BoundStatement) (calls : List (Parameters × Edit)) (n : Nat) :
    Option ParameterMapping :=
  match lastRebinding? calls n with
  | some property => some (.text property)
  | none => bound.mappings[n]?

/-- All that an edit can do. -/
inductive Effect (p : Parameters) : Edit → Parameters → Prop where
  | refused {e : Edit} : p.edit? e = none → Effect p e p
  | added (property : String) (value : Json) : Effect p (.add property value) { p with
      slots := p.slots ++ [⟨.text property, none⟩]
      additional := p.additional.insert property value }
  | inserted {anchor : Anchor} {place : Nat} {before behind : List Slot} (property : String)
      (value : Json) (offset : Nat) : p.position? anchor = some place →
        p.slots = before ++ behind → before.length = min (place + offset + 1) p.slots.length →
          Effect p (.addAfter property value anchor offset) { p with
            slots := before ++ ⟨.text property, none⟩ :: behind
            additional := p.additional.insert property value }
  | rebound {anchor : Anchor} {before behind : List Slot} {slot : Slot} (property : String)
      (value : Json) : p.designated? anchor = some slot → p.slots = before ++ slot :: behind →
        p.position? anchor = some before.length →
          Effect p (.replace property (some value) anchor) { p with
            slots := before ++ { slot with mapping := .text property } :: behind
            additional := p.additional.insert property value }
  | removed {anchor : Anchor} {before behind : List Slot} {slot : Slot} :
      p.designated? anchor = some slot → p.slots = before ++ slot :: behind →
        p.position? anchor = some before.length →
          Effect p (.remove anchor) { p with slots := before ++ behind }
  | written {additional : Members Json} (mapping : ParameterMapping) (value object : Json) :
      Members.keys additional = p.additional.keys → Effect p (.setValue mapping value)
        { p with object := object, additional := additional }

open Property in
/-- All that a write for a mapping can do. -/
inductive Placed (p : Parameters) (mapping : ParameterMapping) (value : Json) :
    Parameters → Prop where
  | additional {held new : Json} :
      p.additional.get? (splitRoot mapping.property).1 = some held →
        set? held (splitRoot mapping.property).2 value = some new → Placed p mapping value
          { p with additional := p.additional.replace (splitRoot mapping.property).1 new }
  | whole : p.additional.get? (splitRoot mapping.property).1 = none → p.object.isScalar = true →
      Placed p mapping value { p with object := value }
  | within {new : Json} : p.additional.get? (splitRoot mapping.property).1 = none →
      p.object.isScalar = false → set? p.object mapping.property value = some new →
        Placed p mapping value { p with object := new }

theorem insertIdx_append {α : Type} (before behind : List α) (x : α) :
    (before ++ behind).insertIdx before.length x = before ++ x :: behind := by
  induction before with
  | nil => exact List.insertIdx_zero
  | cons a before ih => simpa using ih

theorem modify_append {α : Type} (before behind : List α) (x : α) (f : α → α) :
    (before ++ x :: behind).modify before.length f = before ++ f x :: behind := by
  induction before with
  | nil => rfl
  | cons a before ih => simpa using ih

variable {p : Parameters}

/-- An anchor that is found splits the slots at the one it designates. -/
theorem exists_designated {anchor : Anchor} {place : Nat}
    (found : p.position? anchor = some place) :
    ∃ before slot behind, p.slots = before ++ slot :: behind ∧ before.length = place ∧
      p.designated? anchor = some slot := by
  have inside := (List.findIdx?_eq_some_iff_getElem.mp found).1
  refine ⟨p.slots.take place, p.slots[place], p.slots.drop (place + 1), ?_,
    List.length_take_of_le (Nat.le_of_lt inside), ?_⟩
  · rw [List.getElem_cons_drop, List.take_append_drop]
  · rw [designated?, found]
    exact List.getElem?_eq_getElem inside

theorem edit_of_refused {e : Edit} (refused : p.edit? e = none) : p.Effect e (p.edit e) := by
  rw [edit, refused]
  exact .refused refused

theorem addAfter_effect (p : Parameters) (property : String) (value : Json) (anchor : Anchor)
    (offset : Nat) : p.Effect (.addAfter property value anchor offset)
      (p.edit (.addAfter property value anchor offset)) := by
  rcases found : p.position? anchor with _ | place
  · exact edit_of_refused (by simp [edit?, addAfter?, found])
  · obtain ⟨before, behind, whole, length⟩ : ∃ before behind, p.slots = before ++ behind ∧
        before.length = min (place + offset + 1) p.slots.length :=
      ⟨p.slots.take _, p.slots.drop _, (List.take_append_drop _ _).symm,
        List.length_take_of_le (Nat.min_le_right _ _)⟩
    have done : p.edit (.addAfter property value anchor offset) = { p with
        slots := before ++ ⟨.text property, none⟩ :: behind
        additional := p.additional.insert property value } := by
      simp only [edit, edit?, addAfter?, found, Option.bind_eq_bind, Option.bind_some,
        Option.getD_some, ← length]
      rw [whole, insertIdx_append]
    rw [done]
    exact .inserted property value offset found whole length

theorem replace_effect (p : Parameters) (property : String) (value : Option Json)
    (anchor : Anchor) : p.Effect (.replace property value anchor)
      (p.edit (.replace property value anchor)) := by
  rcases found : p.position? anchor with _ | place
  · exact edit_of_refused (by simp [edit?, replace?, found])
  · cases value with
    | none => exact edit_of_refused (by simp [edit?, replace?, found])
    | some value =>
      obtain ⟨before, slot, behind, whole, rfl, designated⟩ := exists_designated found
      have done : p.edit (.replace property (some value) anchor) = { p with
          slots := before ++ { slot with mapping := .text property } :: behind
          additional := p.additional.insert property value } := by
        simp only [edit, edit?, replace?, found, Option.bind_eq_bind, Option.bind_some,
          Option.getD_some]
        rw [whole, modify_append]
      rw [done]
      exact .rebound property value designated whole found

theorem remove_effect (p : Parameters) (anchor : Anchor) :
    p.Effect (.remove anchor) (p.edit (.remove anchor)) := by
  rcases found : p.position? anchor with _ | place
  · exact edit_of_refused (by simp [edit?, remove?, found])
  · obtain ⟨before, slot, behind, whole, rfl, designated⟩ := exists_designated found
    have done : p.edit (.remove anchor) = { p with slots := before ++ behind } := by
      simp [edit, edit?, remove?, found, whole, List.eraseIdx_append_of_length_le]
    rw [done]
    exact .removed designated whole found

theorem placed_of_setValueOf? {q : Parameters} {mapping : ParameterMapping} {value : Json}
    (written : p.setValueOf? mapping value = some q) :
    p.Placed mapping value q := by
  simp only [setValueOf?] at written
  split at written
  · rename_i held stored
    obtain ⟨new, set, done⟩ := Option.bind_eq_some_iff.mp written
    cases done
    exact .additional stored set
  · rename_i unstored
    split at written
    · rename_i scalar
      cases written
      exact .whole unstored scalar
    · rename_i structured
      obtain ⟨new, set, done⟩ := Option.bind_eq_some_iff.mp written
      cases done
      exact .within unstored (Bool.eq_false_iff.mpr structured) set

theorem setValue_effect (p : Parameters) (mapping : ParameterMapping) (value : Json) :
    p.Effect (.setValue mapping value) (p.edit (.setValue mapping value)) := by
  rcases written : p.edit? (.setValue mapping value) with _ | q
  · exact edit_of_refused written
  · have done : p.edit (.setValue mapping value) = q := by rw [edit, written, Option.getD_some]
    rw [done]
    cases placed_of_setValueOf? written with
    | additional => exact .written mapping value p.object (Members.keys_replace _ _ _)
    | whole => exact .written mapping value value rfl
    | @within new => exact .written mapping value new rfl

theorem edit_effect (p : Parameters) (e : Edit) : p.Effect e (p.edit e) := by
  cases e with
  | add property value => exact .added property value
  | addAfter property value anchor offset => exact p.addAfter_effect property value anchor offset
  | replace property value anchor => exact p.replace_effect property value anchor
  | remove anchor => exact p.remove_effect anchor
  | setValue mapping value => exact p.setValue_effect mapping value

/-- The mappings of the input that still have a slot. -/
def ordinals (p : Parameters) : List Nat := p.slots.filterMap Slot.origin

/-- What holds of the parameters after any calls: the ordinals rise, those that are missing were
removed, and each slot of the input has the mapping it was last bound to. -/
structure Anchored (bound : BoundStatement) (calls : List (Parameters × Edit)) (p : Parameters) :
    Prop where
  rising : p.ordinals.Pairwise (· < ·)
  present : ∀ n, n ∈ p.ordinals ↔
    n < bound.mappings.length ∧ n ∉ calls.filterMap removal?
  stands : ∀ slot ∈ p.slots, ∀ n, slot.origin = some n →
    standing? bound calls n = some slot.mapping

variable {bound : BoundStatement} {done : List (Parameters × Edit)}

theorem anchored_ofBound (bound : BoundStatement) : Anchored bound [] (ofBound bound) := by
  have ordinals : (ofBound bound).ordinals = List.range bound.mappings.length := by
    simp only [Parameters.ordinals, ofBound, List.filterMap_map]
    rw [List.range_eq_range', ← List.zipIdx_map_snd 0 bound.mappings, ← List.filterMap_eq_map]
    rfl
  constructor
  · rw [ordinals]
    exact List.pairwise_lt_range
  · intro n
    rw [ordinals]
    simp
  · intro slot member n origin
    simp only [ofBound, List.mem_map, Prod.exists, List.mem_zipIdx_iff_getElem?] at member
    obtain ⟨mapping, ordinal, found, rfl⟩ := member
    cases origin
    exact found

theorem lastRebinding?_other {call : Parameters × Edit} {n : Nat}
    (other : ∀ property, rebinding? call ≠ some (n, property)) :
    lastRebinding? (done ++ [call]) n = lastRebinding? done n := by
  unfold lastRebinding?
  rw [List.filterMap_append, List.filter_append]
  rcases last : rebinding? call with _ | ⟨m, property⟩
  · simp [last]
  · have different : m ≠ n := by
      rintro rfl
      exact other property last
    simp [last, different]

theorem lastRebinding?_here {call : Parameters × Edit} {n : Nat} {property : String}
    (last : rebinding? call = some (n, property)) :
    lastRebinding? (done ++ [call]) n = some property := by
  unfold lastRebinding?
  rw [List.filterMap_append, List.filter_append]
  simp [last]

/-- A call that neither removes nor binds anew leaves what the slots stand for. -/
theorem Anchored.quiet {q : Parameters} {e : Edit} (anchored : Anchored bound done p)
    (kept : removal? (p, e) = none) (still : rebinding? (p, e) = none)
    (ordinals : q.ordinals = p.ordinals)
    (slots : ∀ slot ∈ q.slots, slot ∈ p.slots ∨ slot.origin = none) :
    Anchored bound (done ++ [(p, e)]) q := by
  have removed : (done ++ [(p, e)]).filterMap removal? = done.filterMap removal? := by
    rw [List.filterMap_append, List.filterMap_cons_none kept, List.filterMap_nil, List.append_nil]
  refine ⟨ordinals ▸ anchored.rising, ?_, ?_⟩
  · intro n
    rw [ordinals, removed]
    exact anchored.present n
  · intro slot member n origin
    rcases slots slot member with old | new
    · rw [← anchored.stands slot old n origin, standing?, standing?, lastRebinding?_other]
      intro property
      rw [still]
      exact Option.some_ne_none _ |>.symm
    · rw [origin] at new
      cases new

/-- Ordinals that rise stand in one slot each. -/
theorem origin_unique {before behind : List Slot} {slot other : Slot} {n : Nat}
    (rising : p.ordinals.Pairwise (· < ·)) (whole : p.slots = before ++ slot :: behind)
    (origin : slot.origin = some n) (member : other ∈ before ++ behind) :
    other.origin ≠ some n := by
  intro same
  rw [ordinals, whole, List.filterMap_append, List.filterMap_cons_some origin,
    List.pairwise_append, List.pairwise_cons] at rising
  obtain ⟨-, ⟨later, -⟩, earlier⟩ := rising
  rcases List.mem_append.mp member with ahead | after
  · have less := earlier n (List.mem_filterMap.mpr ⟨other, ahead, same⟩) n List.mem_cons_self
    exact Nat.lt_irrefl n less
  · have less := later n (List.mem_filterMap.mpr ⟨other, after, same⟩)
    exact Nat.lt_irrefl n less

theorem removal?_of_designated {anchor : Anchor} {slot : Slot}
    (designated : p.designated? anchor = some slot) :
    removal? (p, .remove anchor) = slot.origin := by
  rw [removal?, designated, Option.bind_some]

theorem rebinding?_of_designated {anchor : Anchor} {slot : Slot} (property : String) (value : Json)
    (designated : p.designated? anchor = some slot) :
    rebinding? (p, .replace property (some value) anchor) =
      slot.origin.map fun n => (n, property) := by
  rw [rebinding?, designated, Option.bind_some]

theorem Anchored.rebound {anchor : Anchor} {before behind : List Slot} {slot : Slot}
    (anchored : Anchored bound done p) (property : String) (value : Json)
    (designated : p.designated? anchor = some slot) (whole : p.slots = before ++ slot :: behind) :
    Anchored bound (done ++ [(p, .replace property (some value) anchor)]) { p with
      slots := before ++ { slot with mapping := .text property } :: behind
      additional := p.additional.insert property value } := by
  have ordinals : Parameters.ordinals { p with
      slots := before ++ { slot with mapping := .text property } :: behind
      additional := p.additional.insert property value } = p.ordinals := by
    simp only [Parameters.ordinals, whole, List.filterMap_append, List.filterMap_cons]
  rcases Option.eq_none_or_eq_some slot.origin with origin | ⟨m, origin⟩
  · refine anchored.quiet rfl ?_ ordinals fun other member => ?_
    · rw [rebinding?_of_designated property value designated, origin]
      rfl
    · rw [whole]
      simp only [List.mem_append, List.mem_cons] at member ⊢
      rcases member with ahead | rfl | after
      · exact .inl (.inl ahead)
      · exact .inr origin
      · exact .inl (.inr (.inr after))
  · have last : rebinding? (p, .replace property (some value) anchor) = some (m, property) := by
      rw [rebinding?_of_designated property value designated, origin]
      rfl
    have removed : (done ++ [(p, Edit.replace property (some value) anchor)]).filterMap removal? =
        done.filterMap removal? := by
      rw [List.filterMap_append, List.filterMap_cons_none rfl, List.filterMap_nil, List.append_nil]
    refine ⟨ordinals ▸ anchored.rising, fun n => ?_, fun other member n same => ?_⟩
    · rw [ordinals, removed]
      exact anchored.present n
    · by_cases here : other ∈ before ++ behind
      · -- the ordinals rise, so no other slot has the one that is bound anew
        have apart := origin_unique anchored.rising whole origin here
        have different : m ≠ n := fun equal => apart (equal ▸ same)
        have old : other ∈ p.slots := by
          rw [whole]
          simp only [List.mem_append, List.mem_cons] at here ⊢
          exact here.imp_right .inr
        rw [← anchored.stands other old n same, standing?, standing?, lastRebinding?_other]
        intro property'
        simp [last, different]
      · obtain rfl : other = { slot with mapping := .text property } := by
          simp only [List.mem_append, List.mem_cons, not_or] at member here
          rcases member with ahead | equal | after
          · exact absurd ahead here.1
          · exact equal
          · exact absurd after here.2
        obtain rfl : m = n := Option.some.inj (origin.symm.trans same)
        rw [standing?, lastRebinding?_here last]

theorem Anchored.removed {anchor : Anchor} {before behind : List Slot} {slot : Slot}
    (anchored : Anchored bound done p) (designated : p.designated? anchor = some slot)
    (whole : p.slots = before ++ slot :: behind) :
    Anchored bound (done ++ [(p, .remove anchor)]) { p with slots := before ++ behind } := by
  have old : ∀ other ∈ before ++ behind, other ∈ p.slots := by
    intro other member
    rw [whole]
    simp only [List.mem_append, List.mem_cons] at member ⊢
    exact member.imp_right .inr
  rcases Option.eq_none_or_eq_some slot.origin with origin | ⟨m, origin⟩
  · refine anchored.quiet ?_ rfl ?_ fun other member => .inl (old other member)
    · rw [removal?_of_designated designated, origin]
    · rw [Parameters.ordinals, Parameters.ordinals, whole, List.filterMap_append,
        List.filterMap_append, List.filterMap_cons_none origin]
  · have parts : p.ordinals =
        before.filterMap Slot.origin ++ m :: behind.filterMap Slot.origin := by
      rw [Parameters.ordinals, whole, List.filterMap_append, List.filterMap_cons_some origin]
    have left : Parameters.ordinals { p with slots := before ++ behind } =
        before.filterMap Slot.origin ++ behind.filterMap Slot.origin := List.filterMap_append
    have gone : m ∉ Parameters.ordinals { p with slots := before ++ behind } := by
      intro member
      obtain ⟨other, inside, same⟩ := List.mem_filterMap.mp member
      exact origin_unique anchored.rising whole origin inside same
    have removed : (done ++ [(p, Edit.remove anchor)]).filterMap removal? =
        done.filterMap removal? ++ [m] := by
      rw [List.filterMap_append, List.filterMap_cons_some
        ((removal?_of_designated designated).trans origin), List.filterMap_nil]
    refine ⟨?_, fun n => ?_, fun other member n same => ?_⟩
    · refine anchored.rising.sublist ?_
      rw [left, parts]
      exact List.Sublist.append_left (List.sublist_cons_self _ _) _
    · rw [removed]
      by_cases here : n = m
      · subst here
        simp [gone]
      · have same : n ∈ Parameters.ordinals { p with slots := before ++ behind } ↔
            n ∈ p.ordinals := by
          rw [left, parts]
          simp [here]
        rw [same, anchored.present n]
        simp [here]
    · rw [← anchored.stands other (old other member) n same, standing?, standing?,
        lastRebinding?_other]
      exact fun property => Option.some_ne_none _ |>.symm

theorem removal?_of_refused {e : Edit} (refused : p.edit? e = none) : removal? (p, e) = none := by
  cases e with
  | remove anchor =>
    rcases found : p.position? anchor with _ | place
    · simp [removal?, designated?, found]
    · obtain ⟨before, slot, behind, whole, rfl, -⟩ := exists_designated found
      simp [edit?, remove?, found, whole] at refused
  | add | addAfter | replace | setValue => rfl

theorem rebinding?_of_refused {e : Edit} (refused : p.edit? e = none) :
    rebinding? (p, e) = none := by
  cases e with
  | replace property value anchor =>
    cases value with
    | none => rfl
    | some value =>
      rcases found : p.position? anchor with _ | place
      · simp [rebinding?, designated?, found]
      · simp [edit?, replace?, found] at refused
  | add | addAfter | remove | setValue => rfl

theorem Anchored.edit (anchored : Anchored bound done p) (e : Edit) :
    Anchored bound (done ++ [(p, e)]) (p.edit e) := by
  have effect := p.edit_effect e
  generalize p.edit e = q at effect
  cases effect with
  | refused refused =>
    exact anchored.quiet (removal?_of_refused refused) (rebinding?_of_refused refused) rfl
      fun slot member => .inl member
  | added property value =>
    refine anchored.quiet rfl rfl ?_ fun slot member => ?_
    · simp [Parameters.ordinals]
    · rcases List.mem_append.mp member with old | new
      · exact .inl old
      · rw [List.mem_singleton.mp new]
        exact .inr rfl
  | @inserted anchor place before behind property value offset found whole length =>
    refine anchored.quiet rfl rfl ?_ fun slot member => ?_
    · rw [Parameters.ordinals, Parameters.ordinals, whole, List.filterMap_append,
        List.filterMap_cons_none rfl, List.filterMap_append]
    · rw [whole]
      simp only [List.mem_append, List.mem_cons] at member ⊢
      rcases member with ahead | rfl | after
      · exact .inl (.inl ahead)
      · exact .inr rfl
      · exact .inl (.inr after)
  | rebound property value designated whole found =>
    exact anchored.rebound property value designated whole
  | removed designated whole found => exact anchored.removed designated whole
  | written mapping value object keys =>
    exact anchored.quiet rfl rfl rfl fun slot member => .inl member

theorem Anchored.edited (anchored : Anchored bound done p) (edits : List Edit) :
    Anchored bound (done ++ p.calls edits) (p.edited edits) := by
  induction edits generalizing p done with
  | nil => simpa [calls, Parameters.edited] using anchored
  | cons e edits ih =>
    have rest := ih (anchored.edit e)
    rwa [List.append_assoc] at rest

theorem Anchored.position?_eq_none_iff (anchored : Anchored bound done p) {n : Nat}
    (inside : n < bound.mappings.length) :
    p.position? (.origin n) = none ↔ n ∈ done.filterMap removal? := by
  have absent : p.position? (.origin n) = none ↔ n ∉ p.ordinals := by
    simp [position?, Parameters.ordinals, List.findIdx?_eq_none_iff, Anchor.designates]
  rw [absent, anchored.present n]
  simp [inside]

theorem Anchored.mappings_of_position? (anchored : Anchored bound done p) {n place : Nat}
    (found : p.position? (.origin n) = some place) :
    p.mappings[place]? = standing? bound done n := by
  obtain ⟨inside, here, -⟩ := List.findIdx?_eq_some_iff_getElem.mp found
  have origin := (designates_origin n p.slots[place]).mp here
  rw [anchored.stands _ (List.getElem_mem inside) n origin, mappings, List.getElem?_map,
    List.getElem?_eq_getElem inside, Option.map_some]

/-- What one more edit does, and what it leaves. -/
structure Local (p : Parameters) (e : Edit) : Prop where
  refused : p.edit? e = none → p.edit e = p
  added : ∀ property value, e = .add property value →
    (p.edit e).slots = p.slots ++ [⟨.text property, none⟩]
  inserted : ∀ property value anchor offset place, e = .addAfter property value anchor offset →
    p.position? anchor = some place → ∃ before behind, p.slots = before ++ behind ∧
      before.length = min (place + offset + 1) p.slots.length ∧
        (p.edit e).slots = before ++ ⟨.text property, none⟩ :: behind
  keys : ∀ key ∈ p.additional.keys, key ∈ Members.keys (p.edit e).additional
  object : (p.edit e).object ≠ p.object → ∃ mapping value, e = .setValue mapping value

theorem edit_local (p : Parameters) (e : Edit) : p.Local e := by
  have same : p.edit? e = none → p.edit e = p := fun refused => by
    rw [edit, refused, Option.getD_none]
  have grown : ∀ (property : String) (value : Json), ∀ key ∈ p.additional.keys,
      key ∈ Members.keys (p.additional.insert property value) :=
    fun property value key member =>
      (Members.mem_keys_insert property key value _).mpr (.inr member)
  have effect := p.edit_effect e
  constructor
  case refused => exact same
  all_goals generalize p.edit e = q at effect same
  case added =>
    rintro property value rfl
    cases effect with
    | refused refused => cases refused
    | added => rfl
  case inserted =>
    rintro property value anchor offset place rfl found
    cases effect with
    | refused refused => simp [edit?, addAfter?, found] at refused
    | @inserted _ other before behind _ _ _ found' whole length =>
      obtain rfl : place = other := Option.some.inj (found.symm.trans found')
      exact ⟨before, behind, whole, length, rfl⟩
  case keys =>
    cases effect with
    | refused | removed => exact fun _ => id
    | added property value | inserted property value | rebound property value =>
      exact grown property value
    | written mapping value object keys => exact fun key member => keys ▸ member
  case object =>
    intro changed
    cases effect with
    | written mapping value => exact ⟨mapping, value, rfl⟩
    | refused | added | inserted | rebound | removed => exact absurd rfl changed

theorem edited_keys (p : Parameters) (edits : List Edit) :
    ∀ key ∈ p.additional.keys, key ∈ Members.keys (p.edited edits).additional := by
  induction edits generalizing p with
  | nil => exact fun _ => id
  | cons e edits ih => exact fun key member => ih (p.edit e) key ((p.edit_local e).keys key member)

theorem edited_object (p : Parameters) {edits : List Edit}
    (unwritten : ∀ e ∈ edits, ∀ mapping value, e ≠ .setValue mapping value) :
    (p.edited edits).object = p.object := by
  induction edits generalizing p with
  | nil => rfl
  | cons e edits ih =>
    have rest := ih (p.edit e) fun e member => unwritten e (List.mem_cons_of_mem _ member)
    have here : (p.edit e).object = p.object := by
      by_contra changed
      obtain ⟨mapping, value, rfl⟩ := (p.edit_local e).object changed
      exact unwritten _ List.mem_cons_self mapping value rfl
    exact rest.trans here

/-- Any edits leave each mapping of the input where its ordinal finds it, until one removes it. -/
theorem edited_keeps_origins (bound : BoundStatement) (edits : List Edit) :
    let p := (ofBound bound).edited edits
    let calls := (ofBound bound).calls edits
    p.mappings.length = p.origins.length ∧
    p.ordinals.Pairwise (· < ·) ∧
    (∀ n ∈ p.ordinals, n < bound.mappings.length) ∧
    (∀ n < bound.mappings.length,
      (p.position? (.origin n) = none ↔ n ∈ calls.filterMap removal?) ∧
      ∀ place, p.position? (.origin n) = some place →
        p.mappings[place]? = standing? bound calls n) ∧
    (∀ e, p.Local e) ∧
    (∀ key ∈ bound.additional.keys, key ∈ Members.keys p.additional) ∧
    ((∀ e ∈ edits, ∀ mapping value, e ≠ .setValue mapping value) → p.object = bound.object) := by
  have anchored := (anchored_ofBound bound).edited edits
  refine ⟨?_, anchored.rising, ?_, ?_, ?_, ?_, ?_⟩
  · rw [mappings, origins, List.length_map, List.length_map]
  · exact fun n member => ((anchored.present n).mp member).1
  · exact fun n inside =>
      ⟨anchored.position?_eq_none_iff inside, fun place => anchored.mappings_of_position?⟩
  · exact edit_local _
  · exact (ofBound bound).edited_keys edits
  · exact (ofBound bound).edited_object

end Parameters

end SealedColumns
