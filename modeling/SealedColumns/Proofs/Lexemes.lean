import Mathlib.Data.List.Forall2
import SealedColumns.Proofs.Quoting
import SealedColumns.Sql.Lexer

/-!
Texts that spell tokens: wherever such a text stands, in front of something that cannot belong to
its last token, the lexer reads the same tokens from it. Texts are put together with a blank or a
comma between them, and so are their tokens.
-/
namespace SealedColumns.Sql

open SealedColumns.Text

namespace Lexer

def Lexed (d : Dialect) (previous : Option Token) (spaced : Bool) (cs : List Char)
    (ls : List Lexeme) : Prop :=
  ∀ fuel, cs.length ≤ fuel → run d fuel previous spaced cs = some ls

/-- What follows cannot belong to the token in front of it. -/
def isClear : List Char → Bool
  | [] => true
  | c :: _ => c == ' ' || c == ',' || c == '(' || c == ')'

variable {d : Dialect} {previous : Option Token} {spaced : Bool} {c : Char} {cs rest : List Char}
  {ls : List Lexeme}

theorem lexed_nil : Lexed d previous spaced [] [] := fun fuel _ => by cases fuel <;> rfl

theorem Lexed.token {t : Token} {s : Bool} (here : step d previous c cs = some (.token t rest))
    (shorter : rest.length ≤ cs.length) (tail : Lexed d (some t) false rest ls) :
    Lexed d previous s (c :: cs) (⟨t, s⟩ :: ls) := by
  intro fuel enough
  cases fuel with
  | zero => cases enough
  | succ fuel =>
    rw [List.length_cons, Nat.add_le_add_iff_right] at enough
    simp only [run, here, tail fuel (Nat.le_trans shorter enough), Option.map_some]

theorem Lexed.blank (tail : Lexed d none true cs ls) : Lexed d previous spaced (' ' :: cs) ls := by
  intro fuel enough
  cases fuel with
  | zero => cases enough
  | succ fuel =>
    rw [List.length_cons, Nat.add_le_add_iff_right] at enough
    have here : step d previous ' ' cs = some (.blank cs) := rfl
    simp only [run, here, tail fuel enough]

theorem isClear_cases (clear : isClear rest = true) :
    rest = [] ∨ ∃ tail, rest = ' ' :: tail ∨ rest = ',' :: tail ∨ rest = '(' :: tail ∨
      rest = ')' :: tail := by
  cases rest with
  | nil => exact .inl rfl
  | cons c tail =>
    simp only [isClear, Bool.or_eq_true, beq_iff_eq] at clear
    refine .inr ⟨tail, ?_⟩
    simpa [or_assoc] using clear

theorem introduces_other {quote : Char} (other : quote ≠ '\'' ∧ quote ≠ '"') :
    introduces d c quote = false := by
  unfold introduces
  split <;> simp_all

theorem introduces_symbol (other : c.toUpper ∉ ['N', 'X', 'E', 'B', 'R']) (quote : Char) :
    introduces d c quote = false := by
  unfold introduces
  split <;> simp_all

theorem introduces_head (other : c.toUpper ∉ ['N', 'X', 'E', 'B', 'R']) (cs : List Char) :
    cs.head?.any (introduces d c) = false := by
  cases cs with
  | nil => rfl
  | cons next cs => exact introduces_symbol other next

/-- Characters that are looked up among the quotes, the operators and the letters. -/
def isOpen (c : Char) : Bool :=
  !([' ', '\t', '\n', '\r', '\'', '.', '#', '@', '?'].contains c) && !c.isDigit

theorem step_quoted (plain : isOpen c = true) (alone : cs.head?.any (introduces d c) = false)
    (comment : (c, cs.head?) ∉ [('-', some '-'), ('/', some '*'), ('/', some '/')]) :
    step d previous c cs = quoted d c cs := by
  simp only [isOpen, List.contains_cons, List.contains_nil, Bool.or_false, Bool.not_or,
    Bool.and_eq_true, Bool.not_eq_true', beq_eq_false_iff_ne] at plain
  unfold step
  simp only [alone, plain, Bool.false_eq_true, if_false, beq_eq_false_iff_ne.mpr, Bool.or_false,
    ne_eq, not_false_eq_true]
  split <;> simp_all

theorem closingQuote?_other (other : c ∉ ['"', '`', '[']) : d.closingQuote? c = none := by
  simp only [List.mem_cons, List.not_mem_nil, or_false, not_or] at other
  cases d <;> simp [Dialect.closingQuote?, other]

def plainOperators : List String :=
  ["=", "<>", "<", "<=", ">", ">=", "+", "-", "*", "/", "%", "||"]

theorem operator?_plain {text : String} (member : text ∈ plainOperators)
    (clear : isClear rest = true) : operator? (text.toList ++ rest) = some (text, rest) := by
  simp only [plainOperators, List.mem_cons, List.not_mem_nil, or_false] at member
  obtain rfl | ⟨tail, rfl | rfl | rfl | rfl⟩ := isClear_cases clear <;>
    obtain rfl | rfl | rfl | rfl | rfl | rfl | rfl | rfl | rfl | rfl | rfl | rfl := member <;> rfl

theorem step_symbol {text : String} (found : operator? (c :: cs) = some (text, rest))
    (plain : isOpen c = true) (symbol : c.toUpper ∉ ['N', 'X', 'E', 'B', 'R'])
    (comment : (c, cs.head?) ∉ [('-', some '-'), ('/', some '*'), ('/', some '/')])
    (other : c ∉ ['"', '`', '[']) :
    step d previous c cs = some (.token (.symbol text) rest) := by
  have quote : (c == '"') = false := by
    simp only [List.mem_cons, not_or] at other
    exact beq_eq_false_iff_ne.mpr other.1
  rw [step_quoted plain (introduces_head symbol cs) comment, quoted, closingQuote?_other other]
  simp only [quote, Bool.false_eq_true, if_false, found]
  rfl

/-- An operator that neither opens a comment nor a quote. -/
def isPlainOperator : List Char → Bool
  | [] => false
  | c :: cs => isOpen c && !(['N', 'X', 'E', 'B', 'R'].contains c.toUpper) &&
      !(['"', '`', '['].contains c) && (cs.isEmpty || (c != '-' && c != '/'))

theorem isPlainOperator_of_mem {text : String} (member : text ∈ plainOperators) :
    isPlainOperator text.toList = true := by
  have all : ∀ text ∈ plainOperators, isPlainOperator text.toList = true := by decide
  exact all text member

theorem step_operator {text : String} (member : text ∈ plainOperators)
    (clear : isClear rest = true) (split : text.toList = c :: cs) :
    step d previous c (cs ++ rest) = some (.token (.symbol text) rest) := by
  have found := operator?_plain member clear
  have plain := isPlainOperator_of_mem member
  rw [split, List.cons_append] at found
  simp only [split, isPlainOperator, Bool.and_eq_true, Bool.not_eq_true', Bool.or_eq_true,
    List.isEmpty_iff, bne_iff_ne, List.contains_eq_mem, decide_eq_false_iff_not] at plain
  obtain ⟨⟨⟨isOpen, symbol⟩, other⟩, comment⟩ := plain
  refine step_symbol found isOpen symbol ?_ other
  rcases comment with rfl | ⟨minus, slash⟩
  · obtain rfl | ⟨tail, rfl | rfl | rfl | rfl⟩ := isClear_cases clear <;> simp
  · simp [minus, slash]

theorem step_punctuation {mark : Char} (member : mark ∈ [',', '(', ')']) :
    step d previous mark rest = some (.token (.symbol (String.singleton mark)) rest) := by
  simp only [List.mem_cons, List.not_mem_nil, or_false] at member
  obtain rfl | rfl | rfl := member <;>
    exact step_symbol rfl (by decide) (by decide) (by simp) (by decide)

/-- A letter or an underscore. -/
def isLetter (c : Char) : Bool := c.isAlpha || c == '_'

theorem isLetter_ne (letter : isLetter c = true) {other : Char} (plain : isLetter other = false) :
    c ≠ other := by
  rintro rfl
  rw [letter] at plain
  cases plain

theorem isLetter_not_digit (letter : isLetter c = true) : c.isDigit = false := by
  have letter : (decide (65 ≤ c.val ∧ c.val ≤ 90) ||
      (decide (97 ≤ c.val) && decide (c.val ≤ 122)) || c == '_') = true := letter
  simp only [Bool.or_eq_true, Bool.and_eq_true, decide_eq_true_eq, beq_iff_eq,
    UInt32.le_iff_toNat_le] at letter
  simp only [Char.isDigit, ge_iff_le, Bool.and_eq_false_iff, decide_eq_false_iff_not,
    UInt32.le_iff_toNat_le, Nat.not_le]
  rcases letter with (upper | lower) | rfl
  · exact .inr (Nat.lt_of_lt_of_le (by decide) upper.1)
  · exact .inr (Nat.lt_of_lt_of_le (by decide) lower.1)
  · exact .inr (by decide)

theorem isOpen_letter (letter : isLetter c = true) : isOpen c = true := by
  have ne : ∀ other, isLetter other = false → c ≠ other := fun _ => isLetter_ne letter
  have marks : [' ', '\t', '\n', '\r', '\'', '.', '#', '@', '?'].any isLetter = false := by decide
  have outside : [' ', '\t', '\n', '\r', '\'', '.', '#', '@', '?'].contains c = false := by
    rw [List.contains_eq_mem, decide_eq_false_iff_not]
    exact fun member => ne c (Bool.eq_false_iff.mpr (List.any_eq_false.mp marks c member)) rfl
  simp only [isOpen, outside, isLetter_not_digit letter, Bool.not_false, Bool.and_self]

theorem operator?_letter (letter : isLetter c = true) (cs : List Char) :
    operator? (c :: cs) = none := by
  have heads : ∀ text ∈ operators, text.toList.head?.any (!isLetter ·) = true := by decide
  refine List.findSome?_eq_none_iff.mpr fun text member => ?_
  have plain := heads text member
  cases split : text.toList with
  | nil => simp [split] at plain
  | cons head more =>
    simp only [split, List.head?_cons, Option.any_some, Bool.not_eq_true'] at plain
    simp [dropHead?, (isLetter_ne letter plain).symm]

/-- A name as it may stand without quotes: a letter, and what goes on with a name. -/
def isBareName (d : Dialect) : List Char → Bool
  | [] => false
  | c :: cs => isLetter c && d.startsIdentifier c && cs.all d.continuesIdentifier

theorem continuesIdentifier_other
    (other : c ∈ [' ', ',', '(', ')', '.', '\'', '"', '`', ']']) :
    d.continuesIdentifier c = false := by
  simp only [List.mem_cons, List.not_mem_nil, or_false] at other
  rcases other with rfl | rfl | rfl | rfl | rfl | rfl | rfl | rfl | rfl <;> cases d <;> decide

/-- What follows goes on with no name. -/
def EndsName (d : Dialect) (rest : List Char) : Prop :=
  ∀ c ∈ rest.head?, d.continuesIdentifier c = false ∧ c ∉ ['\'', '"', '`', ']']

theorem endsName_clear (clear : isClear rest = true) : EndsName d rest := by
  obtain rfl | ⟨tail, rfl | rfl | rfl | rfl⟩ := isClear_cases clear
  · rintro c ⟨⟩
  all_goals
    rintro c ⟨⟩
    exact ⟨continuesIdentifier_other (by simp), by decide⟩

theorem takeWhile_append_stops {p : Char → Bool} (stops : ∀ c ∈ rest.head?, p c = false)
    (cs : List Char) : (cs ++ rest).takeWhile p = cs.takeWhile p ∧
      (cs ++ rest).dropWhile p = cs.dropWhile p ++ rest := by
  induction cs with
  | nil =>
    cases rest with
    | nil => exact ⟨rfl, rfl⟩
    | cons c rest => simp [stops c rfl]
  | cons c cs ih =>
    cases here : p c with
    | true => simp [here, ih]
    | false => simp [here]

theorem takeWhile_stops {p : Char → Bool} (cs : List Char) (all : cs.all p = true)
    (stops : ∀ c ∈ rest.head?, p c = false) :
    (cs ++ rest).takeWhile p = cs ∧ (cs ++ rest).dropWhile p = rest := by
  have each := List.all_eq_true.mp all
  have ends := takeWhile_append_stops stops []
  rw [List.nil_append] at ends
  rw [List.takeWhile_append_of_pos each, List.dropWhile_append_of_pos each, ends.1, ends.2]
  exact ⟨List.append_nil cs, rfl⟩

theorem step_word (previous : Option Token) (name : isBareName d (c :: cs) = true)
    (ends : EndsName d rest) :
    step d previous c (cs ++ rest) =
      some (.token (.word (String.ofList (c :: cs)) none) rest) := by
  simp only [isBareName, Bool.and_eq_true] at name
  obtain ⟨⟨letter, starts⟩, continues⟩ := name
  have ne (other : Char) (plain : isLetter other = false) : c ≠ other := isLetter_ne letter plain
  have alone : (cs ++ rest).head?.any (introduces d c) = false := by
    have next : ∀ next ∈ (cs ++ rest).head?, next ≠ '\'' ∧ next ≠ '"' := by
      cases cs with
      | nil =>
        intro next member
        have plain := (ends next member).2
        simp only [List.mem_cons, not_or] at plain
        exact ⟨plain.1, plain.2.1⟩
      | cons next cs =>
        rintro _ ⟨⟩
        rw [List.all_cons, Bool.and_eq_true] at continues
        constructor <;> rintro rfl
        · rw [continuesIdentifier_other (by simp)] at continues
          exact absurd continues.1 Bool.false_ne_true
        · rw [continuesIdentifier_other (by simp)] at continues
          exact absurd continues.1 Bool.false_ne_true
    cases head : (cs ++ rest).head? with
    | none => rfl
    | some q => exact introduces_other (next q head)
  have plain : c ∉ ['"', '`', '['] := by
    simp [ne '"' (by decide), ne '`' (by decide), ne '[' (by decide)]
  obtain ⟨taken, left⟩ := takeWhile_stops _ continues fun next member => (ends next member).1
  have comment : (c, (cs ++ rest).head?) ∉ [('-', some '-'), ('/', some '*'), ('/', some '/')] := by
    simp [ne '-' (by decide), ne '/' (by decide)]
  rw [step_quoted (isOpen_letter letter) alone comment, quoted, closingQuote?_other plain]
  have quote : (c == '"') = false := beq_eq_false_iff_ne.mpr (ne '"' (by decide))
  have digits : ([c] ++ cs).all isNumberChar = false := by
    simp [isNumberChar, isLetter_not_digit letter, ne '.' (by decide)]
  simp only [quote, Bool.false_eq_true, if_false, operator?_letter letter, other, starts, if_true,
    word, taken, left, digits]
  rfl

/-- The text of a number, with the `L` of a long one behind it, is that number and no more. -/
def isPlainNumber (d : Dialect) (text : String) (long : Bool) : Bool :=
  let cs := text.toList ++ if long then ['L'] else []
  cs.head?.any isNumberChar &&
    match number d none cs with
    | some (.token token []) => token == .number text long
    | _ => false

/-- A word or a period in front changes what digits mean. -/
def isCalm : Option Token → Bool
  | some (.word _ _) => false
  | some (.symbol text) => text != "."
  | _ => true

theorem isClear_head {p : Char → Bool} (plain : [' ', ',', '(', ')'].any p = false)
    (clear : isClear rest = true) : ∀ c ∈ rest.head?, p c = false := by
  simp only [List.any_cons, Bool.or_eq_false_iff] at plain
  obtain rfl | ⟨tail, rfl | rfl | rfl | rfl⟩ := isClear_cases clear <;> simp [plain]

theorem head?_any_append {p : Char → Bool} (stops : ∀ c ∈ rest.head?, p c = false)
    (cs : List Char) : (cs ++ rest).head?.any p = cs.head?.any p := by
  cases cs with
  | nil =>
    cases rest with
    | nil => rfl
    | cons c rest => exact stops c rfl
  | cons c cs => rfl

theorem signOf_append (clear : isClear rest = true) (tail : List Char) :
    signOf (tail ++ rest) = ((signOf tail).1, (signOf tail).2 ++ rest) := by
  cases tail with
  | nil => obtain rfl | ⟨tail, rfl | rfl | rfl | rfl⟩ := isClear_cases clear <;> rfl
  | cons sign digits =>
    by_cases plus : sign = '+'
    · rw [plus]
      rfl
    · by_cases minus : sign = '-'
      · rw [minus]
        rfl
      · simp [signOf, plus, minus]

theorem exponent_append (clear : isClear rest = true) (cs : List Char) :
    exponent (cs ++ rest) = ((exponent cs).1, (exponent cs).2 ++ rest) := by
  have ends := isClear_head (p := Char.isDigit) (by decide) clear
  cases cs with
  | nil => obtain rfl | ⟨tail, rfl | rfl | rfl | rfl⟩ := isClear_cases clear <;> rfl
  | cons mark tail =>
    simp only [List.cons_append, exponent, signOf_append clear, head?_any_append ends,
      takeWhile_append_stops ends]
    split <;> rfl

theorem decimal_append (clear : isClear rest = true) (cs : List Char) :
    decimal (cs ++ rest) = ((decimal cs).1, (decimal cs).2 ++ rest) := by
  have digits := takeWhile_append_stops (isClear_head (p := Char.isDigit) (by decide) clear)
  unfold decimal
  rw [(digits cs).1, (digits cs).2]
  cases cs.dropWhile Char.isDigit with
  | nil => obtain rfl | ⟨tail, rfl | rfl | rfl | rfl⟩ := isClear_cases clear <;> rfl
  | cons c more =>
    by_cases point : c = '.'
    · rw [point]
      simp only [List.cons_append, digits]
    · simp [point]

theorem lettersBehind_append (clear : isClear rest = true) (power cs : List Char) :
    lettersBehind d (power, cs ++ rest) = lettersBehind d (power, cs) := by
  have stops := isClear_head (p := d.continuesIdentifier) (by cases d <;> decide) clear
  simp only [lettersBehind, takeWhile_append_stops stops]

/-- What is clear does not go on with a number. -/
theorem numberEnd_append (calm : isCalm previous = true) (clear : isClear rest = true)
    {digits cs : List Char} {text : String} {long : Bool}
    (alone : numberEnd d none digits cs = .token (.number text long) []) :
    numberEnd d previous digits (cs ++ rest) = .token (.number text long) rest := by
  have period : (previous == some (.symbol ".")) = false := by
    rw [beq_eq_false_iff_ne]
    rintro rfl
    cases calm
  have start : (none == some (Token.symbol ".")) = false := rfl
  obtain ⟨power, behind⟩ : ∃ power, power = exponent cs := ⟨_, rfl⟩
  unfold numberEnd at alone ⊢
  rw [exponent_append clear, ← behind]
  simp only [← behind, lettersBehind_append clear, period, start, Bool.and_false,
    Bool.false_eq_true, if_false] at alone ⊢
  split at alone
  · cases alone
  · rename_i unlettered
    rw [if_neg unlettered]
    obtain ⟨front, more⟩ := power
    cases more with
    | nil =>
      cases alone
      obtain rfl | ⟨tail, rfl | rfl | rfl | rfl⟩ := isClear_cases clear <;> rfl
    | cons c more =>
      by_cases mark : c = 'L'
      · subst mark
        cases alone
        rfl
      · simp [mark] at alone

theorem number_eq (previous : Option Token) (point : ∀ tail, cs ≠ '.' :: '_' :: tail)
    (hex : ∀ tail, cs ≠ '0' :: 'x' :: tail) :
    number d previous cs =
      if cs.head? == some '.' && d.allowsNumericStart && isAfterWord previous then
        symbol "." (cs.drop 1)
      else if (decimal cs).1 == ['.'] then symbol "." (decimal cs).2
      else some (numberEnd d previous (decimal cs).1 (decimal cs).2) := by
  unfold number
  split
  · exact absurd rfl (point _)
  · exact absurd rfl (hex _)
  · rfl

/-- A number that stands alone stands in front of anything clear. -/
theorem number_append (calm : isCalm previous = true) (clear : isClear rest = true)
    {text : String} {long : Bool} (nonempty : cs ≠ [])
    (alone : number d none cs = some (.token (.number text long) [])) :
    number d previous (cs ++ rest) = some (.token (.number text long) rest) := by
  have calm' : isAfterWord previous = false := by
    cases previous with
    | none => rfl
    | some token => cases token <;> first | rfl | cases calm
  have point : ∀ tail, cs ≠ '.' :: '_' :: tail := by
    rintro tail rfl
    cases alone
  have hex : ∀ tail, cs ≠ '0' :: 'x' :: tail := by
    rintro tail rfl
    cases alone
  obtain ⟨first, more, rfl⟩ := List.exists_cons_of_ne_nil nonempty
  have second {c d : Char} (other : [' ', ',', '(', ')'].any (· == d) = false)
      (apart : ∀ tail, first :: more ≠ c :: d :: tail) (tail : List Char) :
      first :: more ++ rest ≠ c :: d :: tail := by
    intro same
    cases more with
    | nil =>
      have here : rest.head? = some d := congrArg List.head? (List.cons.inj same).2
      simpa using isClear_head other clear d here
    | cons next more =>
      simp only [List.cons_append, List.cons.injEq] at same
      exact apart more (by rw [same.1, same.2.1])
  have start : isAfterWord none = false := rfl
  rw [number_eq none point hex] at alone
  rw [number_eq previous (second (by decide) point) (second (by decide) hex), decimal_append clear]
  simp only [calm', start, Bool.and_false, Bool.false_eq_true, if_false] at alone ⊢
  split at alone
  · cases alone
  · rename_i digits
    rw [if_neg digits, numberEnd_append calm clear (Option.some.inj alone)]

theorem isPlainNumber_cons {text : String} {long : Bool}
    (plain : isPlainNumber d text long = true) :
    ∃ c cs, text.toList ++ (if long then ['L'] else []) = c :: cs ∧ isNumberChar c = true ∧
      number d none (c :: cs) = some (.token (.number text long) []) := by
  simp only [isPlainNumber, Bool.and_eq_true] at plain
  obtain ⟨front, alone⟩ := plain
  cases split : text.toList ++ if long then ['L'] else [] with
  | nil =>
    rw [split] at front
    cases front
  | cons c cs =>
    rw [split] at front alone
    refine ⟨c, cs, rfl, front, ?_⟩
    split at alone
    · rename_i token read
      rw [read, eq_of_beq alone]
    · cases alone

theorem step_number (calm : isCalm previous = true) (clear : isClear rest = true) {text : String}
    {long : Bool} (digit : isNumberChar c = true)
    (alone : number d none (c :: cs) = some (.token (.number text long) [])) :
    step d previous c (cs ++ rest) = some (.token (.number text long) rest) := by
  have ne (other : Char) (plain : isNumberChar other = false) : c ≠ other := by
    rintro rfl
    rw [digit] at plain
    cases plain
  have upper : c.toUpper ∉ ['N', 'X', 'E', 'B', 'R'] := by
    have small : ¬(97 ≤ c.val ∧ c.val ≤ 122) := by
      simp only [isNumberChar, Char.isDigit, ge_iff_le, Bool.or_eq_true, Bool.and_eq_true,
        decide_eq_true_eq, beq_iff_eq, UInt32.le_iff_toNat_le] at digit ⊢
      rcases digit with digit | rfl
      · exact fun lower => absurd (Nat.le_trans lower.1 digit.2) (by decide)
      · decide
    have same : c.toUpper = c := dif_neg small
    rw [same]
    simp [ne 'N' rfl, ne 'X' rfl, ne 'E' rfl, ne 'B' rfl, ne 'R' rfl]
  have blank : (c == ' ' || c == '\t' || c == '\n' || c == '\r') = false := by
    simp [ne ' ' rfl, ne '\t' rfl, ne '\n' rfl, ne '\r' rfl]
  have quote : (c == '\'') = false := beq_eq_false_iff_ne.mpr (ne '\'' rfl)
  have dispatch : (c.isDigit || c == '.') = true := digit
  unfold step
  rw [blank, introduces_head upper, quote, dispatch]
  exact number_append calm clear (List.cons_ne_nil _ _) alone

theorem step_string (previous : Option Token) {text : List Char}
    (kept : (⟨'\'', d.hasBackslashEscapes, d.keepsWildcardEscapes⟩ : StringRules).keeps
      (Char.ofNat 0) text = true) (ends : rest.head? ≠ some '\'') :
    step d previous '\'' (escapeQuotes '\'' (Char.ofNat 0) text ++ '\'' :: rest) =
      some (.token (.string (String.ofList text)) rest) := by
  have read := lexString_escapeQuotes _ (by simp) ends _ text kept
  unfold step
  rw [if_neg (by decide), introduces_head (by decide), if_neg Bool.false_ne_true,
    if_pos (by decide), string, read]
  rfl

theorem step_question (hasMark : d.hasQuestionOperator = false) (clear : isClear rest = true) :
    step d previous '?' rest = some (.token (.placeholder "?") rest) := by
  have digits := takeWhile_stops [] rfl (isClear_head (p := isNumeric) (by decide) clear)
  rw [List.nil_append] at digits
  unfold step
  rw [if_neg (by decide), introduces_head (by decide), if_neg Bool.false_ne_true,
    if_neg (by decide), if_neg (by decide)]
  simp only [question, hasMark, Bool.false_eq_true, if_false, digits]

theorem step_period (ends : ∀ next ∈ rest.head?, next.isDigit = false) (text : String)
    (quote : Option Char) :
    step d (some (.word text quote)) '.' rest = some (.token (.symbol ".") rest) := by
  have digits := takeWhile_stops [] rfl ends
  rw [List.nil_append] at digits
  unfold step
  rw [if_neg (by decide), introduces_head (by decide), if_neg Bool.false_ne_true,
    if_neg (by decide), if_pos (by decide)]
  simp only [number]
  split
  · rename_i same
    obtain ⟨-, rfl⟩ := List.cons.inj same
    rfl
  · rename_i same
    cases same
  · simp [decimal, digits, symbol]

theorem lexQuotedIdent_eq (close : Char) (cs : List Char) :
    lexQuotedIdent close cs = lexString ⟨close, false, false⟩ cs := by
  fun_induction lexQuotedIdent close cs <;> simp_all [lexString]

theorem Lexed.clear (clear : isClear rest = true) (tail : Lexed d none spaced rest ls) :
    Lexed d previous spaced rest ls := by
  have same : ∀ c cs, rest = c :: cs → step d previous c cs = step d none c cs := by
    rintro c cs rfl
    obtain ⟨⟨⟩⟩ | ⟨tail, same⟩ := isClear_cases clear
    obtain ⟨rfl, rfl⟩ | ⟨rfl, rfl⟩ | ⟨rfl, rfl⟩ | ⟨rfl, rfl⟩ := by simpa using same
    · rfl
    all_goals rw [step_punctuation (by decide), step_punctuation (by decide)]
  intro fuel enough
  rw [← tail fuel enough]
  cases rest with
  | nil => cases fuel <;> rfl
  | cons c cs =>
    cases fuel with
    | zero => rfl
    | succ fuel => simp only [run, same c cs rfl]

end Lexer

open Lexer

/-- A text that is these lexemes wherever it stands; the flag tells whether a blank is in front. -/
def Spells (d : Dialect) (text : String) (ls : Bool → List Lexeme) : Prop :=
  ∀ ⦃previous spaced rest tail⦄, isCalm previous = true → isClear rest = true →
    Lexed d none false rest tail → Lexed d previous spaced (text.toList ++ rest) (ls spaced ++ tail)

def mark (text : String) : Lexeme := ⟨.symbol text, false⟩

namespace Spells

variable {d : Dialect} {a b : String} {la lb : Bool → List Lexeme}

theorem blank (first : Spells d a la) (second : Spells d b lb) :
    Spells d (a ++ " " ++ b) fun s => la s ++ lb true := by
  intro previous spaced rest tail calm clear follows
  have behind : Lexed d none false (' ' :: (b.toList ++ rest)) (lb true ++ tail) :=
    .blank (second rfl clear follows)
  simpa using first calm rfl behind

theorem comma (first : Spells d a la) (second : Spells d b lb) :
    Spells d (a ++ ", " ++ b) fun s => la s ++ mark "," :: lb true := by
  intro previous spaced rest tail calm clear follows
  have behind : Lexed d none false (',' :: ' ' :: (b.toList ++ rest))
      (mark "," :: (lb true ++ tail)) :=
    .token (step_punctuation (by decide)) (Nat.le_refl _)
      (.clear rfl (.blank (second rfl clear follows)))
  simpa using first calm rfl behind

theorem parenthesized (inner : Spells d a la) :
    Spells d ("(" ++ a ++ ")") fun s => ⟨.symbol "(", s⟩ :: (la false ++ [mark ")"]) := by
  intro previous spaced rest tail calm clear follows
  have behind : Lexed d none false (')' :: rest) (mark ")" :: tail) :=
    .token (step_punctuation (by decide)) (Nat.le_refl _) (.clear clear follows)
  have front : Lexed d previous spaced ('(' :: (a.toList ++ ')' :: rest))
      (⟨.symbol "(", spaced⟩ :: (la false ++ mark ")" :: tail)) :=
    .token (step_punctuation (by decide)) (Nat.le_refl _) (inner rfl rfl behind)
  simpa using front

/-- A parenthesis right behind a word. -/
theorem parenthesis (first : Spells d a la) (inner : Spells d b lb) :
    Spells d (a ++ "(" ++ b ++ ")") fun s =>
      la s ++ ⟨.symbol "(", false⟩ :: (lb false ++ [mark ")"]) := by
  intro previous spaced rest tail calm clear follows
  have behind : Lexed d none false (("(" ++ b ++ ")").toList ++ rest)
      (⟨.symbol "(", false⟩ :: (lb false ++ [mark ")"]) ++ tail) :=
    inner.parenthesized rfl clear follows
  simp only [String.toList_append, List.append_assoc] at behind
  simpa using first calm rfl behind

theorem parentheses : Spells d "()" fun s => [⟨.symbol "(", s⟩, mark ")"] := by
  intro previous spaced rest tail calm clear follows
  have behind : Lexed d none false (')' :: rest) (mark ")" :: tail) :=
    .token (step_punctuation (by decide)) (Nat.le_refl _) (.clear clear follows)
  exact .token (step_punctuation (by decide)) (Nat.le_refl _) (.clear rfl behind)

theorem token {text : String} {t : Token}
    (single : ∀ previous rest, isCalm previous = true → isClear rest = true →
      ∃ c cs, text.toList = c :: cs ∧ step d previous c (cs ++ rest) = some (.token t rest)) :
    Spells d text fun s => [⟨t, s⟩] := by
  intro previous spaced rest tail calm clear follows
  obtain ⟨c, cs, split, step⟩ := single previous rest calm clear
  rw [split]
  exact .token step (by simp) (.clear clear follows)

end Spells

section Tokens

variable {d : Dialect} {text : String}

theorem isBareName_cons (name : isBareName d text.toList = true) :
    ∃ c cs, text.toList = c :: cs ∧ isBareName d (c :: cs) = true := by
  cases split : text.toList with
  | nil =>
    rw [split] at name
    cases name
  | cons c cs => exact ⟨c, cs, rfl, split ▸ name⟩

theorem spells_word (name : isBareName d text.toList = true) :
    Spells d text fun s => [⟨.word text none, s⟩] := by
  refine .token fun previous rest _ clear => ?_
  obtain ⟨c, cs, split, name⟩ := isBareName_cons name
  have step := step_word previous name (endsName_clear clear)
  rw [← split, String.ofList_toList] at step
  exact ⟨c, cs, split, step⟩

theorem startsIdentifier_letter {c : Char} (letter : c.isAlpha = true) :
    d.startsIdentifier c = true := by
  cases d <;> simp [Dialect.startsIdentifier, Dialect.isAsciiLetter, isAlphabetic, letter]

theorem continuesIdentifier_letter {c : Char} (letter : c.isAlpha = true) :
    d.continuesIdentifier c = true := by
  cases d <;>
    simp [Dialect.continuesIdentifier, Dialect.startsIdentifier, Dialect.isAsciiLetter,
      isAlphabetic, letter]

/-- Letters alone are a word in every dialect. -/
theorem spells_letters (text : String) (nonempty : text.toList ≠ [])
    (letters : text.toList.all Char.isAlpha = true) :
    Spells d text fun s => [⟨.word text none, s⟩] := by
  refine spells_word ?_
  obtain ⟨c, cs, split⟩ := List.exists_cons_of_ne_nil nonempty
  rw [split, List.all_cons, Bool.and_eq_true] at letters
  simp only [split, isBareName, Bool.and_eq_true, isLetter, letters.1, Bool.true_or,
    startsIdentifier_letter, true_and, List.all_eq_true]
  exact fun c member => continuesIdentifier_letter (List.all_eq_true.mp letters.2 c member)

theorem spells_operator (member : text ∈ plainOperators) :
    Spells d text fun s => [⟨.symbol text, s⟩] := by
  refine .token fun previous rest _ clear => ?_
  cases split : text.toList with
  | nil =>
    have plain := isPlainOperator_of_mem member
    rw [split] at plain
    cases plain
  | cons c cs => exact ⟨c, cs, rfl, step_operator member clear split⟩

theorem spells_number {long : Bool} (plain : isPlainNumber d text long = true) :
    Spells d (if long then text ++ "L" else text) fun s => [⟨.number text long, s⟩] := by
  refine .token fun previous rest calm clear => ?_
  obtain ⟨c, cs, split, digit, alone⟩ := isPlainNumber_cons plain
  refine ⟨c, cs, ?_, step_number calm clear digit alone⟩
  rw [← split]
  cases long <;> simp

theorem spells_question (hasMark : d.hasQuestionOperator = false) :
    Spells d "?" fun s => [⟨.placeholder "?", s⟩] :=
  .token fun _ _ _ clear => ⟨'?', [], rfl, step_question hasMark clear⟩

/-- The text is what the string literal denotes that it is printed as. -/
def isPlainLiteral (d : Dialect) (text : String) : Bool :=
  (⟨'\'', d.hasBackslashEscapes, d.keepsWildcardEscapes⟩ : StringRules).keeps (Char.ofNat 0)
    text.toList

theorem spells_string (plain : isPlainLiteral d text = true) :
    Spells d (quoteText '\'' text) fun s => [⟨.string text, s⟩] := by
  refine .token fun previous rest _ clear => ?_
  have ends : rest.head? ≠ some '\'' := fun same =>
    absurd (isClear_head (p := (· == '\'')) (by decide) clear _ same) (by decide)
  have step := step_string previous plain ends
  rw [String.ofList_toList] at step
  refine ⟨'\'', escapeQuotes '\'' (Char.ofNat 0) text.toList ++ ['\''], ?_, ?_⟩
  · simp [quoteText]
  · simpa using step

end Tokens

section Names

variable {d : Dialect} {ident : Ident} {previous : Option Token} {spaced : Bool}
  {rest : List Char} {ls : List Lexeme}

theorem keeps_of_notMem {rules : StringRules} (plain : rules.backslash = false) {previous : Char}
    {cs : List Char} (absent : rules.quote ∉ cs) : rules.keeps previous cs = true := by
  induction cs generalizing previous with
  | nil => rfl
  | cons c cs ih =>
    rw [List.mem_cons, not_or] at absent
    rw [StringRules.keeps.eq_def]
    simp [Ne.symm absent.1, plain, ih absent.2]

theorem escapeQuotes_of_notMem {quote previous : Char} {cs : List Char} (absent : quote ∉ cs) :
    escapeQuotes quote previous cs = cs := by
  induction cs generalizing previous with
  | nil => rfl
  | cons c cs ih =>
    rw [List.mem_cons, not_or] at absent
    rw [escapeQuotes_other (Ne.symm absent.1), ih absent.2]

/-- The name reads as it is printed: bare where it stands bare, and else without anything that its
quote has a meaning for. -/
def Ident.isPlain (d : Dialect) (ident : Ident) : Bool :=
  match ident.quote with
  | none => isBareName d ident.text.toList
  | some '[' => d.closingQuote? '[' == some ']' && !ident.text.toList.contains ']'
  | some quote => d.closingQuote? quote == some quote &&
      (⟨quote, false, false⟩ : StringRules).keeps (Char.ofNat 0) ident.text.toList

theorem Ident.isPlain_bracket (text : String) :
    Ident.isPlain d ⟨text, some '['⟩ =
      (d.closingQuote? '[' == some ']' && !text.toList.contains ']') := rfl

theorem Ident.isPlain_other {quote : Char} (other : quote ≠ '[') (text : String) :
    Ident.isPlain d ⟨text, some quote⟩ = (d.closingQuote? quote == some quote &&
      (⟨quote, false, false⟩ : StringRules).keeps (Char.ofNat 0) text.toList) := by
  unfold isPlain
  split
  · contradiction
  · rename_i known
    exact absurd (Option.some.inj known) other
  · rename_i known
    rw [Option.some.inj known]

/-- A name in quotes, as it is printed. -/
theorem Ident.isPlain_quoted {quote : Char} (quoted : ident.quote = some quote)
    (plain : ident.isPlain d = true) :
    ∃ close, d.closingQuote? quote = some close ∧
      ident.render.toList =
        quote :: escapeQuotes close (Char.ofNat 0) ident.text.toList ++ [close] ∧
      (⟨close, false, false⟩ : StringRules).keeps (Char.ofNat 0) ident.text.toList = true := by
  obtain ⟨text, _⟩ := ident
  cases quoted
  by_cases bracket : quote = '['
  · subst bracket
    simp only [isPlain_bracket, Bool.and_eq_true, beq_iff_eq, Bool.not_eq_true',
      List.contains_eq_mem, decide_eq_false_iff_not] at plain
    refine ⟨']', plain.1, ?_, keeps_of_notMem rfl plain.2⟩
    rw [escapeQuotes_of_notMem plain.2]
    simp [Ident.render]
  · rw [isPlain_other bracket, Bool.and_eq_true, beq_iff_eq] at plain
    refine ⟨quote, plain.1, ?_, plain.2⟩
    have rendered : Ident.render ⟨text, some quote⟩ = quoteText quote text := by
      unfold Ident.render
      split
      · contradiction
      · rename_i known
        exact absurd (Option.some.inj known) bracket
      · rename_i known
        rw [Option.some.inj known]
    rw [rendered]
    simp [quoteText]

theorem closingQuote?_some {quote close : Char} (known : d.closingQuote? quote = some close) :
    quote ∈ ['"', '`', '['] ∧ close ∈ ['"', '`', ']'] := by
  by_cases member : quote ∈ ['"', '`', '[']
  · refine ⟨member, ?_⟩
    simp only [List.mem_cons, List.not_mem_nil, or_false] at member
    rcases member with rfl | rfl | rfl <;> cases d <;> cases known <;> decide
  · rw [closingQuote?_other member] at known
    cases known

theorem isBareName_notMem {cs : List Char} (name : isBareName d cs = true) {quote : Char}
    (quotes : quote ∈ ['"', '`', ']']) : quote ∉ cs := by
  have plain : d.continuesIdentifier quote = false ∧ isLetter quote = false := by
    constructor
    · apply continuesIdentifier_other
      simp only [List.mem_cons, List.not_mem_nil, or_false] at quotes ⊢
      tauto
    · simp only [List.mem_cons, List.not_mem_nil, or_false] at quotes
      rcases quotes with rfl | rfl | rfl <;> decide
  cases cs with
  | nil => simp
  | cons c cs =>
    simp only [isBareName, Bool.and_eq_true, List.all_eq_true] at name
    rw [List.mem_cons, not_or]
    refine ⟨fun same => ?_, fun member => ?_⟩
    · rw [same, name.1.1] at plain
      cases plain.2
    · rw [name.2 quote member] at plain
      cases plain.1

/-- A name that may stand without quotes is as plain in the quotes of another. -/
theorem Ident.isPlain_rename {text : String} (plain : ident.isPlain d = true)
    (bare : (Ident.bare text).isPlain d = true) :
    Ident.isPlain d { ident with text := text } = true := by
  obtain ⟨old, quoted⟩ := ident
  cases quoted with
  | none => exact bare
  | some quote =>
    obtain ⟨close, known, -, -⟩ := Ident.isPlain_quoted rfl plain
    have absent : close ∉ text.toList := isBareName_notMem bare (closingQuote?_some known).2
    by_cases bracket : quote = '['
    · subst bracket
      rw [isPlain_bracket, Bool.and_eq_true, beq_iff_eq] at plain ⊢
      obtain rfl : ']' = close := Option.some.inj (plain.1.symm.trans known)
      exact ⟨known, by simpa using absent⟩
    · dsimp only
      rw [isPlain_other bracket, Bool.and_eq_true, beq_iff_eq] at plain ⊢
      obtain rfl : quote = close := Option.some.inj (plain.1.symm.trans known)
      exact ⟨known, keeps_of_notMem rfl absent⟩

theorem step_ident (previous : Option Token) {quote close : Char} {text : List Char}
    (known : d.closingQuote? quote = some close)
    (kept : (⟨close, false, false⟩ : StringRules).keeps (Char.ofNat 0) text = true)
    (ends : rest.head? ≠ some close) :
    step d previous quote (escapeQuotes close (Char.ofNat 0) text ++ close :: rest) =
      some (.token (.word (String.ofList text) (some quote)) rest) := by
  obtain ⟨quotes, closes⟩ := closingQuote?_some known
  have wildcards : close ≠ '%' ∧ close ≠ '_' := by
    constructor <;> rintro rfl <;> exact absurd closes (by decide)
  have read := lexString_escapeQuotes ⟨close, false, false⟩ wildcards ends _ text kept
  have facts : isOpen quote = true ∧ quote.toUpper ∉ ['N', 'X', 'E', 'B', 'R'] ∧ quote ≠ '-' ∧
      quote ≠ '/' := by
    simp only [List.mem_cons, List.not_mem_nil, or_false] at quotes
    rcases quotes with rfl | rfl | rfl <;> decide
  obtain ⟨opens, upper, minus, slash⟩ := facts
  rw [step_quoted opens (introduces_head upper _) (by simp [minus, slash]), Lexer.quoted, known]
  simp only [lexQuotedIdent_eq, read]
  rfl

theorem lexed_ident {p : Option Token} {s : Bool} (plain : ident.isPlain d = true)
    (ends : EndsName d rest)
    (follows : Lexed d (some (.word ident.text ident.quote)) false rest ls) :
    Lexed d p s (ident.render.toList ++ rest) (⟨.word ident.text ident.quote, s⟩ :: ls) := by
  cases quoted : ident.quote with
  | none =>
    obtain ⟨text, _⟩ := ident
    cases quoted
    obtain ⟨c, cs, split, name⟩ := isBareName_cons plain
    have step := step_word p name ends
    rw [← split, String.ofList_toList] at step
    have lexed := Lexed.token (s := s) step (by simp) follows
    simpa [Ident.render, split] using lexed
  | some quote =>
    obtain ⟨close, known, rendered, kept⟩ := Ident.isPlain_quoted quoted plain
    have other : rest.head? ≠ some close := by
      intro same
      have absent := (ends close same).2
      have closes := (closingQuote?_some known).2
      simp only [List.mem_cons, List.not_mem_nil, or_false, not_or] at absent closes
      rcases closes with rfl | rfl | rfl <;> simp at absent
    have step := step_ident p known kept other
    rw [rendered]
    rw [String.ofList_toList] at step
    rw [quoted] at follows
    have lexed := Lexed.token (s := s) step (by simp; omega) follows
    simpa using lexed

/-- The parts of a dotted name behind the first. -/
def partLexemes (parts : List Ident) : List Lexeme :=
  parts.flatMap fun part => [mark ".", ⟨.word part.text part.quote, false⟩]

def nameLexemes : Name → Bool → List Lexeme
  | [], _ => []
  | ident :: parts, spaced => ⟨.word ident.text ident.quote, spaced⟩ :: partLexemes parts

theorem render_cons (ident : Ident) (parts : List Ident) :
    (Name.render (ident :: parts)).toList =
      ident.render.toList ++ parts.flatMap fun part => '.' :: part.render.toList := by
  induction parts generalizing ident with
  | nil => simp [Name.render]
  | cons part parts ih =>
    have behind := ih part
    simp only [Name.render, List.map_cons] at behind ⊢
    rw [String.intercalate_cons_cons, String.toList_append, String.toList_append, behind]
    simp

theorem render_head (plain : ident.isPlain d = true) (rest : List Char) :
    ∀ c ∈ (ident.render.toList ++ rest).head?, c.isDigit = false := by
  cases quoted : ident.quote with
  | none =>
    obtain ⟨text, _⟩ := ident
    cases quoted
    obtain ⟨c, cs, split, name⟩ := isBareName_cons plain
    simp only [isBareName, Bool.and_eq_true] at name
    simp [Ident.render, split, isLetter_not_digit name.1.1]
  | some quote =>
    obtain ⟨close, known, rendered, -⟩ := Ident.isPlain_quoted quoted plain
    have marks : ['"', '`', '['].any Char.isDigit = false := by decide
    have digit := List.any_eq_false.mp marks quote (closingQuote?_some known).1
    simpa [rendered] using digit

theorem endsName_parts (clear : isClear rest = true) (parts : List Ident) :
    EndsName d ((parts.flatMap fun part => '.' :: part.render.toList) ++ rest) := by
  cases parts with
  | nil => exact endsName_clear clear
  | cons next parts =>
    rintro c ⟨⟩
    exact ⟨continuesIdentifier_other (by simp), by decide⟩

theorem lexed_parts {tail : List Lexeme} (clear : isClear rest = true)
    (follows : Lexed d none false rest tail) (parts : List Ident)
    (plain : ∀ part ∈ parts, part.isPlain d = true) (text : String) (quote : Option Char) :
    Lexed d (some (.word text quote)) false
      ((parts.flatMap fun part => '.' :: part.render.toList) ++ rest)
      (partLexemes parts ++ tail) := by
  induction parts generalizing text quote with
  | nil => exact .clear clear follows
  | cons part parts ih =>
    rw [List.forall_mem_cons] at plain
    have here := lexed_ident (p := some (.symbol ".")) (s := false) plain.1
      (endsName_parts clear parts) (ih plain.2 part.text part.quote)
    have lexed := Lexed.token (s := false)
      (step_period (render_head plain.1 _) text quote) (Nat.le_refl _) here
    simpa [partLexemes, mark] using lexed

theorem spells_name {name : Name} (nonempty : name ≠ [])
    (plain : ∀ ident ∈ name, ident.isPlain d = true) : Spells d name.render (nameLexemes name) := by
  obtain ⟨ident, parts, rfl⟩ := List.exists_cons_of_ne_nil nonempty
  rw [List.forall_mem_cons] at plain
  intro previous spaced rest tail calm clear follows
  rw [render_cons, List.append_assoc]
  exact lexed_ident plain.1 (endsName_parts clear parts)
    (lexed_parts clear follows parts plain.2 _ _)

end Names

def commaLexemes : List (Bool → List Lexeme) → Bool → List Lexeme
  | [], _ => []
  | [l], spaced => l spaced
  | l :: ls, spaced => l spaced ++ mark "," :: commaLexemes ls true

theorem spells_commaJoin {d : Dialect} {texts : List String} {ls : List (Bool → List Lexeme)}
    (each : List.Forall₂ (Spells d) texts ls) (nonempty : texts ≠ []) :
    Spells d (commaJoin texts) (commaLexemes ls) := by
  induction each with
  | nil => exact absurd rfl nonempty
  | @cons text l texts ls first others ih =>
    cases others with
    | nil => exact first
    | @cons next l' texts ls second others =>
      have joined : commaJoin (text :: next :: texts) = text ++ ", " ++ commaJoin (next :: texts) :=
        String.intercalate_cons_cons
      rw [joined]
      exact first.comma (ih (List.cons_ne_nil _ _))

end SealedColumns.Sql
