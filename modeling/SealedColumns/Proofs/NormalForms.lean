import Mathlib.Data.List.DropRight
import SealedColumns.Proofs.Naming

/-!
The form under which names are compared: what a second pass makes of it, and what quotes around a
name make of it. A pass takes off one pair of quotes, and between them the name may have white space
at an end, or quotes of its own. The names that have neither are bare, and they alone are the same
in every form.
-/
namespace SealedColumns

namespace Text

theorem trim_isInfix (s : String) : (trim s).toList <:+: s.toList := by
  rw [trim, String.toList_ofList]
  exact (List.rdropWhile_prefix isBlank _).isInfix.trans (List.dropWhile_suffix isBlank).isInfix

/-- Trimming leaves the texts that have no white space at either end. -/
theorem trim_eq_self_iff {s : String} : trim s = s ↔
    (∀ c ∈ s.toList.head?, isBlank c = false) ∧ ∀ c ∈ s.toList.getLast?, isBlank c = false := by
  rw [← String.toList_inj, trim, String.toList_ofList]
  generalize s.toList = cs
  have first : cs.dropWhile isBlank = cs ↔ ∀ c ∈ cs.head?, isBlank c = false := by
    cases cs with
    | nil => simp
    | cons c rest => simp [List.dropWhile_eq_self_iff]
  have last : cs.rdropWhile isBlank = cs ↔ ∀ c ∈ cs.getLast?, isBlank c = false := by
    rw [List.rdropWhile_eq_self_iff]
    cases cs with
    | nil => simp
    | cons c rest => simp [List.getLast?_eq_some_getLast]
  rw [← first, ← last]
  change (cs.dropWhile isBlank).rdropWhile isBlank = cs ↔ _
  constructor
  · intro same
    have suffix : cs.dropWhile isBlank <:+ cs := List.dropWhile_suffix isBlank
    have shorter := (List.rdropWhile_prefix isBlank (cs.dropWhile isBlank)).length_le
    have whole : cs.dropWhile isBlank = cs := by
      refine suffix.eq_of_length (Nat.le_antisymm suffix.length_le ?_)
      rwa [same] at shorter
    rw [whole] at same
    exact ⟨whole, same⟩
  · rintro ⟨front, back⟩
    rw [front, back]

/-- White space around a text is not part of what trimming leaves. -/
theorem trim_padded {before after : String} (front : isBlankText before = true)
    (back : isBlankText after = true) (s : String) : trim (before ++ s ++ after) = trim s := by
  have behind : ∀ c ∈ after.toList, isBlank c = true := List.all_eq_true.mp back
  have turned : ∀ c ∈ after.toList.reverse, isBlank c = true := fun c member =>
    behind c (List.mem_reverse.mp member)
  rw [trim, trim, trimChars, trimChars, String.toList_append, String.toList_append,
    List.append_assoc, List.dropWhile_append_of_pos (List.all_eq_true.mp front),
    List.dropWhile_append]
  split
  · rename_i nothing
    rw [List.isEmpty_iff.mp nothing, List.dropWhile_eq_nil_iff.mpr behind]
  · rw [List.reverse_append, List.dropWhile_append_of_pos turned]

theorem isBlank_toLower (c : Char) : isBlank c.toLower = isBlank c := by
  rcases toLower_eq_self_or c with same | ⟨upper, lower⟩
  · rw [same]
  · have outside : ∀ d : Char, (65 ≤ d.toNat ∧ d.toNat ≤ 90) ∨ (97 ≤ d.toNat ∧ d.toNat ≤ 122) →
        isBlank d = false := by
      intro d letter
      simp only [isBlank, Bool.or_eq_false_iff, Bool.and_eq_false_iff, beq_eq_false_iff_ne, ne_eq,
        decide_eq_false_iff_not]
      omega
    rw [outside c (.inl upper), outside c.toLower (.inr lower)]

theorem trimChars_toLower (cs : List Char) :
    trimChars (cs.map Char.toLower) = (trimChars cs).map Char.toLower := by
  have blind : isBlank ∘ Char.toLower = isBlank := funext isBlank_toLower
  simp only [trimChars, List.dropWhile_map, ← List.map_reverse, blind]

theorem trim_asciiLower (s : String) : trim (asciiLower s) = asciiLower (trim s) := by
  simp only [trim, asciiLower, String.toList_ofList, trimChars_toLower]

end Text

/-- A text that stands for itself as a name: no white space at either end, and no pair of quotes
around it. -/
structure Bare (name : String) : Prop where
  front : ∀ c ∈ name.toList.head?, Text.isBlank c = false
  back : ∀ c ∈ name.toList.getLast?, Text.isBlank c = false
  unquoted : ∀ pair ∈ quotePairs, ∀ inner, name ≠ quoted pair inner

section Means

variable {text name : String}

/-- A name stands in the text that means it. -/
theorem Means.isInfix (means : Means text name) : name.toList <:+: text.toList := by
  cases means with
  | @quoted pair _ _ written =>
    refine List.IsInfix.trans ⟨[pair.1], [pair.2], ?_⟩ (Text.trim_isInfix text)
    rw [written, toList_quoted, List.singleton_append, List.cons_append]
  | plain _ => exact Text.trim_isInfix text

theorem Bare.trim (bare : Bare name) : Text.trim name = name :=
  Text.trim_eq_self_iff.mpr ⟨bare.front, bare.back⟩

/-- The bare names are the texts that mean themselves. -/
theorem Means.eq_self_iff (means : Means text name) : name = text ↔ Bare text := by
  constructor
  · intro same
    cases means with
    | @quoted pair _ _ written =>
      -- without its quotes the name is shorter than the text
      have shorter := (Text.trim_isInfix text).length_le
      rw [written, toList_quoted, same, List.length_cons, List.length_append] at shorter
      omega
    | plain unquoted =>
      obtain ⟨front, back⟩ := Text.trim_eq_self_iff.mp same
      exact ⟨front, back, same ▸ unquoted⟩
  · intro bare
    have itself : Means text (Text.trim text) := .plain (bare.trim.symm ▸ bare.unquoted)
    exact (means.unique itself).trans bare.trim

/-- Letter case aside, too, only a bare name is the name that it means. -/
theorem Means.asciiLower_eq_iff (means : Means text name) :
    Text.asciiLower name = Text.asciiLower text ↔ Bare text := by
  rw [← means.eq_self_iff]
  constructor
  · intro same
    have letters := congrArg String.toList same
    rw [Text.asciiLower, Text.asciiLower, String.toList_ofList, String.toList_ofList] at letters
    have long := congrArg List.length letters
    rw [List.length_map, List.length_map] at long
    exact String.toList_injective (means.isInfix.eq_of_length long)
  · exact congrArg Text.asciiLower

end Means

section LowerCase

variable {pair : Char × Char}

/-- A quote is the lower case of itself and of nothing else. -/
theorem toLower_eq_quote (known : pair ∈ quotePairs) (c : Char) :
    (c.toLower = pair.1 ↔ c = pair.1) ∧ (c.toLower = pair.2 ↔ c = pair.2) := by
  have aside : ∀ pair ∈ quotePairs, (pair.1.toLower = pair.1 ∧ pair.2.toLower = pair.2) ∧
      ¬ (97 ≤ pair.1.toNat ∧ pair.1.toNat ≤ 122) ∧ ¬ (97 ≤ pair.2.toNat ∧ pair.2.toNat ≤ 122) := by
    decide
  obtain ⟨⟨first, last⟩, firstAside, lastAside⟩ := aside pair known
  rcases Text.toLower_eq_self_or c with same | ⟨-, lower⟩
  · rw [same]
    exact ⟨Iff.rfl, Iff.rfl⟩
  · refine ⟨⟨fun quote => ?_, fun quote => quote ▸ first⟩,
      ⟨fun quote => ?_, fun quote => quote ▸ last⟩⟩
    · exact absurd (quote ▸ lower) firstAside
    · exact absurd (quote ▸ lower) lastAside

theorem asciiLower_quoted (known : pair ∈ quotePairs) (inner : String) :
    Text.asciiLower (quoted pair inner) = quoted pair (Text.asciiLower inner) := by
  apply String.toList_injective
  simp only [Text.asciiLower, String.toList_ofList, toList_quoted, List.map_cons, List.map_append,
    List.map_nil, (toLower_eq_quote known pair.1).1.mpr rfl,
    (toLower_eq_quote known pair.2).2.mpr rfl]

/-- Quotes around the lower case of a text stand around the text. -/
theorem eq_quoted_of_asciiLower (known : pair ∈ quotePairs) {s inner : String}
    (written : Text.asciiLower s = quoted pair inner) : ∃ inner', s = quoted pair inner' := by
  have chars := congrArg String.toList written
  rw [Text.asciiLower, String.toList_ofList, toList_quoted, List.map_eq_cons_iff] at chars
  obtain ⟨first, rest, whole, opens, chars⟩ := chars
  obtain ⟨middle, back, rfl, -, ends⟩ := List.map_eq_append_iff.mp chars
  obtain ⟨last, nothing, rfl, closes, empty⟩ := List.map_eq_cons_iff.mp ends
  obtain rfl := List.map_eq_nil_iff.mp empty
  rw [(toLower_eq_quote known first).1.mp opens, (toLower_eq_quote known last).2.mp closes] at whole
  exact ⟨String.ofList middle,
    String.toList_injective (by rw [whole, toList_quoted, String.toList_ofList])⟩

/-- A text in lower case means the same name, in lower case. -/
theorem Means.asciiLower {text name : String} (means : Means text name) :
    Means (Text.asciiLower text) (Text.asciiLower name) := by
  cases means with
  | quoted known written =>
    refine .quoted known ?_
    rw [Text.trim_asciiLower, written, asciiLower_quoted known]
  | plain unquoted =>
    rw [← Text.trim_asciiLower]
    refine .plain fun pair known inner written => ?_
    rw [Text.trim_asciiLower] at written
    obtain ⟨inner', written'⟩ := eq_quoted_of_asciiLower known written
    exact unquoted pair known inner' written'

end LowerCase

theorem stripQuotes_asciiLower (s : String) :
    stripQuotes (Text.asciiLower s) = Text.asciiLower (stripQuotes s) :=
  (means_stripQuotes _).unique (means_stripQuotes s).asciiLower

/-- The text with white space around it, or none. -/
inductive Padded (text : String) : String → Prop where
  | around {before after : String} : Text.isBlankText before = true →
      Text.isBlankText after = true → Padded text (before ++ text ++ after)

section Written

variable {name written : String}

theorem Padded.trim (padded : Padded name written) : Text.trim written = Text.trim name := by
  cases padded with
  | around front back => exact Text.trim_padded front back name

/-- Quotes at the ends leave nothing to trim. -/
theorem trim_quoted {pair : Char × Char} (known : pair ∈ quotePairs) (inner : String) :
    Text.trim (quoted pair inner) = quoted pair inner := by
  have visible : ∀ pair ∈ quotePairs,
      Text.isBlank pair.1 = false ∧ Text.isBlank pair.2 = false := by
    decide
  rw [Text.trim_eq_self_iff, toList_quoted, List.head?_cons, ← List.cons_append,
    List.getLast?_concat]
  simpa using visible pair known

/-- Whatever a text in quotes is, it is the name that they mean. -/
theorem Padded.means_quoted {pair : Char × Char} (known : pair ∈ quotePairs)
    (padded : Padded (quoted pair name) written) : Means written name :=
  .quoted known (padded.trim.trans (trim_quoted known name))

theorem Padded.normalizeIdentifier_eq (padded : Padded name written) :
    normalizeIdentifier written = normalizeIdentifier name := by
  rw [normalizeIdentifier, normalizeIdentifier, stripQuotes, stripQuotes, padded.trim]

end Written

/-- Which forms of a name are the same. -/
structure NormalForms (name : String) : Prop where
  named : Means name (stripQuotes name)
  form : normalizeIdentifier name = Text.asciiLower (stripQuotes name)
  /-- A second pass takes off what still stands around the name that the first one found. -/
  again : normalizeIdentifier (normalizeIdentifier name) =
    Text.asciiLower (stripQuotes (stripQuotes name))
  stable : normalizeIdentifier (normalizeIdentifier name) = normalizeIdentifier name ↔
    Bare (stripQuotes name)
  /-- Quotes of any style keep the name as it is, letter case aside. -/
  unwrapped : ∀ pair ∈ quotePairs, ∀ written, Padded (quoted pair name) written →
    normalizeIdentifier written = Text.asciiLower name
  alike : ∀ pair ∈ quotePairs, ∀ written plain, Padded (quoted pair name) written →
    Padded name plain → (normalizeIdentifier written = normalizeIdentifier plain ↔ Bare name)

/-- A second pass leaves a normal form as it is just when the text means a bare name, and a name has
one normal form in quotes and without them just when it is bare. -/
theorem normal_forms (name : String) : NormalForms name := by
  have quotes : ∀ pair ∈ quotePairs, ∀ written, Padded (quoted pair name) written →
      normalizeIdentifier written = Text.asciiLower name :=
    fun pair known written padded => (padded.means_quoted known).readAlike.compared
  have again : normalizeIdentifier (normalizeIdentifier name) =
      Text.asciiLower (stripQuotes (stripQuotes name)) := by
    rw [normalizeIdentifier, normalizeIdentifier, stripQuotes_asciiLower,
      Text.asciiLower_asciiLower]
  refine ⟨means_stripQuotes name, rfl, again, ?_, quotes,
    fun pair known written plain padded unquoted => ?_⟩
  · rw [again]
    exact (means_stripQuotes (stripQuotes name)).asciiLower_eq_iff
  · rw [quotes pair known written padded, unquoted.normalizeIdentifier_eq, eq_comm]
    exact (means_stripQuotes name).asciiLower_eq_iff

/-- Quotes in quotes, and white space in quotes. -/
theorem normal_form_changes :
    normalizeIdentifier (normalizeIdentifier "\"\"a\"\"") ≠ normalizeIdentifier "\"\"a\"\"" ∧
      normalizeIdentifier "\" a \"" ≠ normalizeIdentifier " a " := by
  decide

end SealedColumns
