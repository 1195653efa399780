import SealedColumns.Column
import SealedColumns.Proofs.Handover

/-!
The names that a configuration writes. Whatever blanks and quotes a name is written with, the check
of the configuration, the catalog and the look-up of a column all mean the same name by it.
-/
namespace SealedColumns

namespace Text

theorem dropHead?_eq_some {head cs rest : List Char} :
    dropHead? head cs = some rest ↔ cs = head ++ rest := by
  induction head generalizing cs with
  | nil => simp [dropHead?]
  | cons h head ih =>
    cases cs with
    | nil => simp [dropHead?]
    | cons c cs =>
      by_cases same : h = c
      · simp [dropHead?, same, ih]
      · simp [dropHead?, same, Ne.symm same]

theorem between?_eq_some {head tail s inner : String} :
    between? head tail s = some inner ↔ s = head ++ inner ++ tail := by
  simp only [between?, Option.bind_eq_bind, Option.bind_eq_some_iff, dropHead?_eq_some,
    Option.pure_def, Option.some.injEq]
  constructor
  · rintro ⟨rest, whole, middle, back, rfl⟩
    have split := congrArg List.reverse back
    rw [List.reverse_reverse, List.reverse_append, List.reverse_reverse] at split
    apply String.toList_injective
    rw [whole, split, String.toList_append, String.toList_append, String.toList_ofList,
      List.append_assoc]
  · rintro rfl
    refine ⟨inner.toList ++ tail.toList, ?_, inner.toList.reverse, List.reverse_append, ?_⟩
    · rw [String.toList_append, String.toList_append, List.append_assoc]
    · rw [List.reverse_reverse, String.ofList_toList]

end Text

/-- A text between a pair of quotes. -/
def quoted (pair : Char × Char) (inner : String) : String :=
  String.singleton pair.1 ++ inner ++ String.singleton pair.2

theorem toList_quoted (pair : Char × Char) (inner : String) :
    (quoted pair inner).toList = pair.1 :: (inner.toList ++ [pair.2]) := by
  simp [quoted]

/-- The name that a text means: what stands between its quotes, or else all of it, without the
blanks around it. -/
inductive Means (text : String) : String → Prop where
  | quoted {pair : Char × Char} {inner : String} : pair ∈ quotePairs →
      Text.trim text = quoted pair inner → Means text inner
  | plain : (∀ pair ∈ quotePairs, ∀ inner, Text.trim text ≠ quoted pair inner) →
      Means text (Text.trim text)

theorem quoted_inj {pair pair' : Char × Char} {inner inner' : String} (known : pair ∈ quotePairs)
    (known' : pair' ∈ quotePairs) (same : quoted pair inner = quoted pair' inner') :
    inner = inner' := by
  have chars := congrArg String.toList same
  rw [toList_quoted, toList_quoted] at chars
  have heads : ∀ pair ∈ quotePairs, ∀ pair' ∈ quotePairs, pair.1 = pair'.1 → pair = pair' := by
    decide
  obtain ⟨first, rest⟩ := List.cons.inj chars
  obtain rfl := heads _ known _ known' first
  exact String.toList_injective (List.append_cancel_right rest)

theorem unquotedBy?_eq_some {s inner : String} {pair : Char × Char} :
    unquotedBy? s pair = some inner ↔ s = quoted pair inner :=
  Text.between?_eq_some

theorem means_stripQuotes (text : String) : Means text (stripQuotes text) := by
  simp only [stripQuotes]
  cases found : quotePairs.findSome? (unquotedBy? (Text.trim text)) with
  | some inner =>
    obtain ⟨pair, known, here⟩ := List.exists_of_findSome?_eq_some found
    exact .quoted known (unquotedBy?_eq_some.mp here)
  | none =>
    refine .plain fun pair known inner written => ?_
    have nothing := List.findSome?_eq_none_iff.mp found pair known
    rw [unquotedBy?_eq_some.mpr written] at nothing
    cases nothing

/-- A text means one name. -/
theorem Means.unique {text name name' : String} (means : Means text name)
    (means' : Means text name') : name = name' := by
  cases means with
  | quoted known written =>
    cases means' with
    | quoted known' written' => exact quoted_inj known known' (written.symm.trans written')
    | plain unquoted => exact absurd written (unquoted _ known _)
  | plain unquoted =>
    cases means' with
    | quoted known written => exact absurd written (unquoted _ known _)
    | plain _ => rfl

/-- All that reads a name makes the same of it: the catalog keeps it, and the check of the
configuration compares it in the form in which a column of that name is looked up. -/
structure ReadAlike (text name : String) : Prop where
  kept : stripQuotes text = name
  compared : normalizeIdentifier text = Text.asciiLower name
  looked : ∀ ident : Sql.Ident, Text.equalIgnoringCase ident.text name = true ↔
    ident.normalized = normalizeIdentifier text

theorem Means.readAlike {text name : String} (means : Means text name) : ReadAlike text name := by
  have kept : stripQuotes text = name := (means_stripQuotes text).unique means
  have compared : normalizeIdentifier text = Text.asciiLower name := by
    rw [normalizeIdentifier, kept]
  refine ⟨kept, compared, fun ident => ?_⟩
  rw [Text.equalIgnoringCase, beq_iff_eq, compared]
  exact Iff.rfl

end SealedColumns
