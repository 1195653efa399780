import SealedColumns.Sql.Token
import SealedColumns.Sql.Printer

/-!
Texts that quoting keeps: what is printed between quotes is read as the text that it was printed
from. Doubling leaves alone a quote that already has one next to it or a backslash in front of it,
so not every text is kept.
-/
namespace SealedColumns.Sql

/-- The text is what its quoted form denotes: no quote stands behind another one or behind a
backslash, and a backslash that escapes is kept with what it escapes. -/
def StringRules.keeps (rules : StringRules) : Char → List Char → Bool
  | _, [] => true
  | previous, c :: rest =>
    if c == rules.quote then previous != '\\' && previous != c && keeps rules c rest
    else if c == '\\' && rules.backslash then
      match rest with
      | [] => false
      | d :: rest => rules.keepWildcards && (d == '%' || d == '_') && keeps rules d rest
    else keeps rules c rest

theorem lexString_end {rules : StringRules} {rest : List Char}
    (ends : rest.head? ≠ some rules.quote) :
    lexString rules (rules.quote :: rest) = some ([], rest) := by
  cases rest with
  | nil => simp [lexString]
  | cons c rest =>
    have other : c ≠ rules.quote := fun same => ends (congrArg some same)
    simp [lexString, other]

theorem StringRules.keeps_quote {rules : StringRules} {rest : List Char}
    (kept : rules.keeps rules.quote rest = true) : rest.head? ≠ some rules.quote := by
  cases rest with
  | nil => simp
  | cons c rest =>
    intro same
    obtain rfl := Option.some.inj same
    rw [StringRules.keeps.eq_def] at kept
    simp at kept

theorem escapeQuotes_quote {quote previous : Char} {rest : List Char} (plain : previous ≠ '\\')
    (ends : rest.head? ≠ some quote) :
    escapeQuotes quote previous (quote :: rest) =
      quote :: quote :: escapeQuotes quote quote rest := by
  cases rest with
  | nil => simp [escapeQuotes, plain]
  | cons d rest =>
    have other : d ≠ quote := fun same => ends (congrArg some same)
    simp [escapeQuotes, plain, other]

theorem escapeQuotes_other {quote previous c : Char} {rest : List Char} (other : c ≠ quote) :
    escapeQuotes quote previous (c :: rest) = c :: escapeQuotes quote c rest := by
  cases rest <;> simp [escapeQuotes, other]

theorem lexString_quote {rules : StringRules} (rest : List Char) :
    lexString rules (rules.quote :: rules.quote :: rest) =
      (lexString rules rest).map fun (cs, rest) => (rules.quote :: cs, rest) := by
  simp [lexString]

theorem lexString_other {rules : StringRules} {c : Char} {rest : List Char} (nonempty : rest ≠ [])
    (other : c ≠ rules.quote) (plain : (c == '\\' && rules.backslash) = false) :
    lexString rules (c :: rest) =
      (lexString rules rest).map fun (cs, rest) => (c :: cs, rest) := by
  cases rest with
  | nil => exact absurd rfl nonempty
  | cons d rest => simp [lexString, other, plain]

theorem lexString_escapeQuotes (rules : StringRules) {rest : List Char}
    (ordinary : rules.quote ≠ '%' ∧ rules.quote ≠ '_')
    (ends : rest.head? ≠ some rules.quote) (previous : Char) (text : List Char)
    (kept : rules.keeps previous text = true) :
    lexString rules (escapeQuotes rules.quote previous text ++ rules.quote :: rest) =
      some (text, rest) := by
  fun_induction StringRules.keeps rules previous text with
  | case1 previous => exact lexString_end ends
  | case2 previous c more quoted ih =>
    obtain rfl := beq_iff_eq.mp quoted
    simp only [Bool.and_eq_true, bne_iff_ne] at kept
    obtain ⟨⟨plain, -⟩, kept⟩ := kept
    rw [escapeQuotes_quote plain (StringRules.keeps_quote kept), List.cons_append, List.cons_append,
      lexString_quote, ih kept, Option.map_some]
  | case3 previous c => contradiction
  | case4 previous c other escapes d more ih =>
    simp only [Bool.and_eq_true, Bool.or_eq_true, beq_iff_eq] at kept escapes other
    obtain ⟨⟨wild, which⟩, kept⟩ := kept
    obtain ⟨rfl, active⟩ := escapes
    have plain : d ≠ rules.quote := by
      rcases which with rfl | rfl
      · exact ordinary.1.symm
      · exact ordinary.2.symm
    rw [escapeQuotes_other other, escapeQuotes_other plain]
    simp [lexString, other, active, wild, which, ih kept]
  | case5 previous c more other ordinary' ih =>
    have other : c ≠ rules.quote := by simpa using other
    rw [escapeQuotes_other other, List.cons_append, lexString_other (by simp) other, ih kept,
      Option.map_some]
    simpa using ordinary'

theorem StringRules.keeps_of_clear {rules : StringRules} {text : List Char}
    (clear : ∀ c ∈ text, c ≠ rules.quote ∧ c ≠ '\\') (previous : Char) :
    rules.keeps previous text = true := by
  induction text generalizing previous with
  | nil => rfl
  | cons c text ih =>
    rw [List.forall_mem_cons] at clear
    rw [StringRules.keeps.eq_def]
    simp [clear.1, ih clear.2]

end SealedColumns.Sql
