import Mathlib.Data.List.TakeWhile
import SealedColumns.Proofs.Members
import SealedColumns.Rows

/-!
Which key of a row holds a property. By precedence it is the property itself, then the first key
that is equal letter case aside, then the first that is equal without the underscores. One search
looks for the second and the third kind together, so that a key of the third kind wins where it
stands in front of all keys of the second.
-/
namespace SealedColumns.Rows

/-- The key that holds a property by precedence. -/
def keyByPrecedence? (camelCase : Bool) (property : String) (row : Members Json) :
    Option String :=
  if row.contains property then some property
  else
    (row.keys.find? (Text.equalIgnoringCase · property)).or
      (if camelCase then row.keys.find? (Text.equalIgnoringCase · (dropUnderscores property))
        else none)

/-- A key that is equal to the property without its underscores only stands in front of the keys
that are equal to the property letter case aside. -/
structure Overtaken (camelCase : Bool) (property : String) (row : Members Json) : Prop where
  camelCase : camelCase = true
  absent : row.contains property = false
  present : ∃ key ∈ row.keys, Text.equalIgnoringCase key property = true
  ahead : ∃ key ∈ row.keys.takeWhile (!Text.equalIgnoringCase · property),
    Text.equalIgnoringCase key (dropUnderscores property) = true

section Search

variable {α : Type} (p q : α → Bool) {l : List α}

/-- A search for two kinds finds the first of the second kind if that stands in front of the first
kind. -/
theorem find?_either_of_ahead (ahead : ∃ a ∈ l.takeWhile (!p ·), q a = true) :
    ∃ a, p a = false ∧ l.find? (fun a => p a || q a) = some a ∧ l.find? q = some a := by
  induction l with
  | nil =>
    obtain ⟨a, member, -⟩ := ahead
    cases member
  | cons a l ih =>
    rw [List.takeWhile_cons] at ahead
    cases first : p a with
    | true => simp [first] at ahead
    | false =>
      cases second : q a with
      | true => exact ⟨a, first, by simp [second], by simp [second]⟩
      | false =>
        simp only [first, Bool.not_false, if_true, List.mem_cons, exists_eq_or_imp, second,
          Bool.false_eq_true, false_or] at ahead
        simp only [List.find?_cons, first, second, Bool.or_self]
        exact ih ahead

/-- And else the first of the first kind, or if there is none, of the second. -/
theorem find?_either_of_not_ahead
    (behind : (∃ a ∈ l, p a = true) → ¬ ∃ a ∈ l.takeWhile (!p ·), q a = true) :
    l.find? (fun a => p a || q a) = (l.find? p).or (l.find? q) := by
  induction l with
  | nil => rfl
  | cons a l ih =>
    cases first : p a with
    | true => simp [List.find?_cons, first]
    | false =>
      simp only [List.mem_cons, exists_eq_or_imp, first, Bool.false_eq_true, false_or,
        List.takeWhile_cons, Bool.not_false, if_true] at behind
      cases second : q a with
      | true =>
        have none : l.find? p = none := by
          refine List.find?_eq_none.mpr fun b member found => ?_
          exact behind ⟨b, member, found⟩ (.inl second)
        simp [first, second, none]
      | false =>
        simp only [List.find?_cons, first, second, Bool.or_self]
        exact ih fun present => (not_or.mp (behind present)).2

end Search

variable {camelCase : Bool} {property : String} {row : Members Json}

/-- A property whose key is overtaken has the key that overtakes it. -/
theorem Overtaken.keyOf? (overtaken : Overtaken camelCase property row) :
    ∃ key, Text.equalIgnoringCase key property = false ∧
      Rows.keyOf? camelCase property row = some key ∧
      row.keys.find? (Text.equalIgnoringCase · (dropUnderscores property)) = some key := by
  obtain ⟨rfl, absent, -, ahead⟩ := overtaken
  rw [Rows.keyOf?, absent]
  exact find?_either_of_ahead _ _ ahead

theorem Overtaken.ne (overtaken : Overtaken camelCase property row) :
    Rows.keyOf? camelCase property row ≠ keyByPrecedence? camelCase property row := by
  obtain ⟨key, other, found, -⟩ := overtaken.keyOf?
  obtain ⟨equal, member, same⟩ := overtaken.present
  rw [found, keyByPrecedence?, overtaken.absent]
  cases first : row.keys.find? (Text.equalIgnoringCase · property) with
  | none => exact absurd same (List.find?_eq_none.mp first equal member)
  | some key' =>
    intro wrong
    cases wrong
    exact Bool.false_ne_true (other.symm.trans (List.find?_eq_some_iff_append.mp first).1)

theorem keyOf?_by_precedence (kept : ¬ Overtaken camelCase property row) :
    keyOf? camelCase property row = keyByPrecedence? camelCase property row := by
  unfold keyOf? keyByPrecedence?
  split
  · rfl
  · rename_i absent
    cases camelCase with
    | false =>
      have plain : holds false property = (Text.equalIgnoringCase · property) := by
        funext key
        simp [holds]
      simp [plain]
    | true =>
      refine find?_either_of_not_ahead _ _ fun present ahead => kept ⟨rfl, ?_, present, ahead⟩
      exact Bool.eq_false_iff.mpr absent

/-- In rising keys the first one that is found is the least. -/
theorem le_of_find? {keys : List String} {found : String → Bool} {key : String}
    (rising : keys.Pairwise (· < ·)) (first : keys.find? found = some key) :
    ∀ k ∈ keys, found k = true → key ≤ k := by
  obtain ⟨-, before, behind, rfl, fails⟩ := List.find?_eq_some_iff_append.mp first
  intro k member holds
  rcases List.mem_append.mp member with ahead | later
  · have fail := fails k ahead
    rw [holds] at fail
    cases fail
  · rcases List.mem_cons.mp later with rfl | later
    · exact String.le_refl k
    · have sorted := (List.pairwise_append.mp rising).2.1
      exact String.not_lt.mp (String.lt_asymm ((List.pairwise_cons.mp sorted).1 k later))

/-- The cell of a property without points and brackets is the one under its key. The key is the one
by precedence exactly if that is not overtaken by a key that is equal without the underscores only,
in which case it is the first such key. Rising keys have each first key as the least of its
kind. -/
theorem cell_under_first_key (camelCase : Bool) (property : String) (row : Members Json)
    (plain : isPath property = false) :
    cell? camelCase property (.object row) =
      (keyOf? camelCase property row).bind (Members.get? · row) ∧
    (keyOf? camelCase property row = keyByPrecedence? camelCase property row ↔
      ¬ Overtaken camelCase property row) ∧
    (Overtaken camelCase property row → keyOf? camelCase property row =
      row.keys.find? (Text.equalIgnoringCase · (dropUnderscores property))) ∧
    (row.keys.Pairwise (· < ·) → row.contains property = false →
      ∀ key, keyOf? camelCase property row = some key →
        ∀ k ∈ row.keys, holds camelCase property k = true → key ≤ k) := by
  refine ⟨?_, ⟨fun same overtaken => overtaken.ne same, keyOf?_by_precedence⟩, ?_, ?_⟩
  · simp only [cell?, plain, Bool.false_eq_true, if_false]
  · intro overtaken
    obtain ⟨key, -, found, first⟩ := overtaken.keyOf?
    exact found.trans first.symm
  · intro rising absent key found
    simp only [keyOf?, absent, Bool.false_eq_true, if_false] at found
    exact le_of_find? rising found

end Rows

namespace Sample

/-- Two keys that one property can be read from. -/
def spelledTwice : Members Json := [("userSsn", .string "#a"), ("user_ssn", .string "#b")]

end Sample

open Sample Rows

theorem cell_under_first_key_exact : isPath "user_ssn" = false ∧
    ¬ Overtaken true "user_ssn" spelledTwice ∧
    keyOf? true "user_ssn" spelledTwice = some "user_ssn" := by
  have plain : isPath "user_ssn" = false := by decide +kernel
  have kept : ¬ Overtaken true "user_ssn" spelledTwice :=
    fun overtaken => absurd overtaken.absent (by decide +kernel)
  have key := (cell_under_first_key true "user_ssn" spelledTwice plain).2.1.mpr kept
  exact ⟨plain, kept, key.trans (by decide +kernel)⟩

/-- The key that is equal letter case aside stands behind the one that is equal without the
underscore only, and its cell is not the one that is found. -/
theorem key_overtaken : spelledTwice.keys.Pairwise (· < ·) ∧
    keyOf? true "USER_SSN" spelledTwice = some "userSsn" ∧
    keyByPrecedence? true "USER_SSN" spelledTwice = some "user_ssn" := by
  decide +kernel

end SealedColumns
