import SealedColumns.Proofs.Lexemes
import SealedColumns.Sql.Parse.Statement

/-!
What the parsers of lists, parentheses and names make of tokens, and what it is for a text to read
back: it spells tokens that a parser takes, up to something that the parser does not go on with.
-/
namespace SealedColumns.Sql

open SealedColumns.Text

/-- The token that is next. -/
def next? (tokens : List Lexeme) : Option Token := tokens.head?.map Lexeme.token

@[simp] theorem next?_cons (lexeme : Lexeme) (rest : List Lexeme) :
    next? (lexeme :: rest) = some lexeme.token := rfl

@[simp] theorem next?_nil : next? [] = none := rfl

def keyword? (tokens : List Lexeme) : Option String := (next? tokens).bind Token.keyword?

@[simp] theorem keyword?_symbol (text : String) (spaced : Bool) (rest : List Lexeme) :
    keyword? (⟨.symbol text, spaced⟩ :: rest) = none := rfl

namespace Parse

variable {α β : Type} {tokens rest : List Lexeme} {spaced : Bool}

theorem bind_of {p : Parse α} {f : α → Parse β} {a : α} {m : List Lexeme}
    {result : Except Failure (β × List Lexeme)} (first : p tokens = .ok (a, m))
    (second : f a m = result) : (p >>= f) tokens = result := by
  have step : (p >>= f) tokens = (p tokens >>= fun result => f result.1 result.2) := rfl
  rw [step, first]
  exact second

theorem bind_fails {p : Parse α} {f : α → Parse β} {failure : Failure}
    (first : p tokens = .error failure) : (p >>= f) tokens = .error failure := by
  have step : (p >>= f) tokens = (p tokens >>= fun result => f result.1 result.2) := rfl
  rw [step, first]
  rfl

theorem attempt_some {p : Parse α} {a : α} (run : p tokens = .ok (a, rest)) :
    attempt p tokens = .ok (some a, rest) := by
  rw [attempt, run]

theorem attempt_none {p : Parse α} (run : p tokens = .error .unexpected) :
    attempt p tokens = .ok (none, tokens) := by
  rw [attempt, run]

theorem peek_zero (tokens : List Lexeme) : peek 0 tokens = .ok (next? tokens, tokens) := by
  cases tokens <;> rfl

theorem isAt_zero (text : String) (tokens : List Lexeme) :
    isAt 0 text tokens = .ok (next? tokens == some (.symbol text), tokens) := by
  cases tokens <;> rfl

theorem isWordAt_zero (keyword : String) (tokens : List Lexeme) :
    isWordAt 0 keyword tokens = .ok (keyword? tokens == some keyword, tokens) := by
  cases tokens <;> rfl

theorem isWordAt_other {keyword : String} (other : keyword? tokens ≠ some keyword) :
    isWordAt 0 keyword tokens = .ok (false, tokens) := by
  rw [isWordAt_zero, beq_eq_false_iff_ne.mpr other]

theorem isOneOfAt_zero (keywords : List String) (tokens : List Lexeme) :
    isOneOfAt 0 keywords tokens = .ok ((keyword? tokens).any keywords.contains, tokens) := by
  cases tokens <;> rfl

theorem isOneOfAt_one (keywords : List String) (lexeme : Lexeme) (tokens : List Lexeme) :
    isOneOfAt 1 keywords (lexeme :: tokens) =
      .ok ((keyword? tokens).any keywords.contains, lexeme :: tokens) := by
  cases tokens <;> rfl

theorem isWordAt_one (keyword : String) (lexeme : Lexeme) (tokens : List Lexeme) :
    isWordAt 1 keyword (lexeme :: tokens) =
      .ok (keyword? tokens == some keyword, lexeme :: tokens) := by
  cases tokens <;> rfl

theorem isOneOfAt_other {keywords : List String}
    (other : ∀ keyword ∈ keyword? tokens, keyword ∉ keywords) :
    isOneOfAt 0 keywords tokens = .ok (false, tokens) := by
  rw [isOneOfAt_zero]
  cases found : keyword? tokens with
  | none => rfl
  | some keyword => simp [other keyword found]

theorem eat_here (text : String) (rest : List Lexeme) :
    eat text (⟨.symbol text, spaced⟩ :: rest) = .ok (true, rest) := by
  refine bind_of (isAt_zero text _) ?_
  simp only [next?_cons, beq_self_eq_true]
  rfl

theorem eat_other {text : String} (other : next? tokens ≠ some (.symbol text)) :
    eat text tokens = .ok (false, tokens) := by
  refine bind_of (isAt_zero text _) ?_
  simp only [beq_eq_false_iff_ne.mpr other]
  rfl

theorem eatIf_other {text : String} (allowed : Bool)
    (other : next? tokens ≠ some (.symbol text)) :
    eatIf allowed text tokens = .ok (false, tokens) := by
  cases allowed with
  | true => exact eat_other other
  | false => rfl

theorem eatWord_eq (keyword : String) (tokens : List Lexeme) :
    eatWord keyword tokens =
      if keyword? tokens = some keyword then .ok (true, tokens.drop 1)
      else .ok (false, tokens) := by
  refine bind_of (isWordAt_zero keyword _) ?_
  by_cases same : keyword? tokens = some keyword <;>
    simp only [same, beq_self_eq_true, if_true, if_false, beq_eq_false_iff_ne.mpr, ne_eq,
      not_false_eq_true] <;> rfl

theorem eatWord_here {keyword text : String} (same : keywordText text = keyword)
    (rest : List Lexeme) :
    eatWord keyword (⟨.word text none, spaced⟩ :: rest) = .ok (true, rest) := by
  rw [eatWord_eq]
  exact if_pos (congrArg some same)

theorem eatWord_other {keyword : String} (other : keyword? tokens ≠ some keyword) :
    eatWord keyword tokens = .ok (false, tokens) := by
  rw [eatWord_eq, if_neg other]

theorem eatWordIf_other {keyword : String} (allowed : Bool)
    (other : keyword? tokens ≠ some keyword) :
    eatWordIf allowed keyword tokens = .ok (false, tokens) := by
  cases allowed with
  | true => exact eatWord_other other
  | false => rfl

theorem eatWords_other {keyword : String} {more : List String}
    (other : keyword? tokens ≠ some keyword) :
    eatWords (keyword :: more) tokens = .ok (false, tokens) := by
  have first : wordsAt 0 (keyword :: more) tokens = .ok (false, tokens) := by
    refine bind_of (isWordAt_zero keyword _) ?_
    simp only [beq_eq_false_iff_ne.mpr other]
    rfl
  exact bind_of first rfl

theorem wordsAt_keeps (words : List String) (ahead : Nat) (tokens : List Lexeme) :
    ∃ found, wordsAt ahead words tokens = .ok (found, tokens) := by
  induction words generalizing ahead with
  | nil => exact ⟨true, rfl⟩
  | cons word words ih =>
    obtain ⟨found, rest⟩ := ih (ahead + 1)
    have here : isWordAt ahead word tokens =
        .ok ((tokens[ahead]?.map Lexeme.token).any (Token.isKeyword · word), tokens) := rfl
    cases known : (tokens[ahead]?.map Lexeme.token).any (Token.isKeyword · word) with
    | true => exact ⟨found, bind_of (a := true) (m := tokens) (here.trans (by rw [known])) rest⟩
    | false => exact ⟨false, bind_of (a := false) (m := tokens) (here.trans (by rw [known])) rfl⟩

theorem eatOneOf_other {keywords : List String}
    (other : ∀ keyword ∈ keyword? tokens, keyword ∉ keywords) :
    eatOneOf keywords tokens = .ok (none, tokens) := by
  refine bind_of (peek_zero tokens) ?_
  cases found : (next? tokens).bind Token.keyword? with
  | none => rfl
  | some keyword =>
    have absent := other keyword found
    simp [absent]
    rfl

theorem eatChoice_other {choices : List (List String × α)}
    (other : ∀ choice ∈ choices, ∃ keyword more, choice.1 = keyword :: more ∧
      keyword? tokens ≠ some keyword) : eatChoice choices tokens = .ok (none, tokens) := by
  induction choices with
  | nil => rfl
  | cons choice choices ih =>
    obtain ⟨words, a⟩ := choice
    rw [List.forall_mem_cons] at other
    obtain ⟨⟨keyword, more, rfl, differs⟩, others⟩ := other
    exact bind_of (eatWords_other differs) (ih others)

theorem expect_here (text : String) (rest : List Lexeme) :
    expect text (⟨.symbol text, spaced⟩ :: rest) = .ok ((), rest) :=
  bind_of (eat_here text rest) rfl

theorem expectWord_here {keyword text : String} (same : keywordText text = keyword)
    (rest : List Lexeme) :
    expectWord keyword (⟨.word text none, spaced⟩ :: rest) = .ok ((), rest) :=
  bind_of (eatWord_here same rest) rfl

theorem expect_fails {text : String} (other : next? tokens ≠ some (.symbol text)) :
    expect text tokens = .error .unexpected :=
  bind_of (eat_other other) rfl

/-- A step of a loop takes the lexemes for the item, in front of what may follow the lexemes of
an item. -/
structure Repeats (step : Parse (Option α)) (next : List Lexeme → Prop) (l : List Lexeme) (a : α) :
    Prop where
  nonempty : l ≠ []
  opens : ∀ rest, next (l ++ rest)
  takes : ∀ rest, next rest → step (l ++ rest) = .ok (some a, rest)

section Repeats

variable {step : Parse (Option α)} {next : List Lexeme → Prop} {ls : List (List Lexeme)}
  {as : List α}

theorem repeats_opens (each : List.Forall₂ (Repeats step next) ls as) (follows : next rest) :
    next (ls.flatten ++ rest) := by
  cases each with
  | nil => exact follows
  | cons first _ =>
    rw [List.flatten_cons, List.append_assoc]
    exact first.opens _

/-- A repeated step takes the items one by one, and stops at what is behind them. -/
theorem repeatUpTo_takes (each : List.Forall₂ (Repeats step next) ls as) (follows : next rest)
    (stop : step rest = .ok (none, rest)) (fuel : Nat) (enough : ls.length ≤ fuel) :
    repeatUpTo step fuel (ls.flatten ++ rest) = .ok (as, rest) := by
  induction each generalizing fuel with
  | nil =>
    cases fuel with
    | zero => rfl
    | succ fuel => exact bind_of stop rfl
  | cons first others ih =>
    cases fuel with
    | zero => cases enough
    | succ fuel =>
      rw [List.flatten_cons, List.append_assoc]
      refine bind_of (first.takes _ (repeats_opens others follows)) ?_
      exact bind_of (ih fuel (Nat.le_of_succ_le_succ enough)) rfl

theorem repeated_takes (each : List.Forall₂ (Repeats step next) ls as) (follows : next rest)
    (stop : step rest = .ok (none, rest)) :
    repeated step (ls.flatten ++ rest) = .ok (as, rest) := by
  refine bind_of rfl (repeatUpTo_takes each follows stop _ ?_)
  have bound : ls.length ≤ ls.flatten.length := by
    clear follows stop
    induction each with
    | nil => exact Nat.le_refl _
    | cons first _ ih =>
      have here := List.length_pos_iff.mpr first.nonempty
      simp only [List.flatten_cons, List.length_append, List.length_cons]
      omega
  rw [List.length_append]
  omega

end Repeats

theorem repeated_items {step : Parse (Option α)} (lexemes : α → List Lexeme)
    (stop : step rest = .ok (none, rest)) (items : List α)
    (steps : ∀ item ∈ items, ∀ behind, step (lexemes item ++ behind) = .ok (some item, behind))
    (filled : ∀ item ∈ items, lexemes item ≠ []) :
    repeated step (items.flatMap lexemes ++ rest) = .ok (items, rest) := by
  have each : List.Forall₂ (Repeats step fun _ => True) (items.map lexemes) items := by
    rw [List.forall₂_map_left_iff, List.forall₂_same]
    exact fun item member => ⟨filled item member, fun _ => trivial, fun rest _ =>
      steps item member rest⟩
  rw [List.flatMap_def]
  exact repeated_takes each trivial stop

theorem repeated_none {step : Parse (Option α)} (stop : step rest = .ok (none, rest)) :
    repeated step rest = .ok ([], rest) :=
  repeated_items (fun _ => []) stop [] (by simp) (by simp)

end Parse

open Parse

/-- What a parser gives for these lexemes, whatever comes after them that it may not go on with. -/
def Takes {α : Type} (p : Parse α) (next : List Lexeme → Prop) (ls : Bool → List Lexeme) (a : α) :
    Prop :=
  ∀ spaced rest, next rest → p (ls spaced ++ rest) = .ok (a, rest)

section Lists

variable {α : Type} {item : Parse α} {next : List Lexeme → Prop}

theorem commaLexemes_cons (l : Bool → List Lexeme) (ls : List (Bool → List Lexeme))
    (spaced : Bool) : commaLexemes (l :: ls) spaced =
      l spaced ++ ls.flatMap fun l => mark "," :: l true := by
  induction ls generalizing l spaced with
  | nil => simp [commaLexemes]
  | cons second ls ih => rw [commaLexemes, ih, List.flatMap_cons, List.cons_append]; simp

theorem moreAfterComma_takes {rest : List Lexeme} (comma : ∀ rest, next (mark "," :: rest))
    {ls : List (Bool → List Lexeme)} {as : List α} (each : List.Forall₂ (Takes item next) ls as)
    (follows : next rest) (stop : next? rest ≠ some (.symbol ",")) (fuel : Nat)
    (enough : ls.length ≤ fuel) :
    moreAfterComma item fuel ((ls.flatMap fun l => mark "," :: l true) ++ rest) =
      .ok (as, rest) := by
  induction each generalizing fuel with
  | nil =>
    cases fuel with
    | zero => rfl
    | succ fuel => exact bind_of (eat_other stop) rfl
  | @cons l a ls as first others ih =>
    cases fuel with
    | zero => cases enough
    | succ fuel =>
      rw [List.flatMap_cons, List.cons_append, List.cons_append, List.append_assoc]
      refine bind_of (eat_here "," _) ?_
      have behind : next ((ls.flatMap fun l => mark "," :: l true) ++ rest) := by
        cases ls with
        | nil => exact follows
        | cons l ls => exact comma _
      refine bind_of (first true _ behind) ?_
      exact bind_of (ih fuel (Nat.le_of_succ_le_succ enough)) rfl

theorem commaList_takes (comma : ∀ rest, next (mark "," :: rest))
    {ls : List (Bool → List Lexeme)} {as : List α} (each : List.Forall₂ (Takes item next) ls as)
    (nonempty : as ≠ []) :
    Takes (commaList item) (fun rest => next rest ∧ next? rest ≠ some (.symbol ","))
      (commaLexemes ls) as := by
  rintro spaced rest ⟨follows, stop⟩
  cases each with
  | nil => exact absurd rfl nonempty
  | @cons l a ls as first others =>
    rw [commaLexemes_cons, List.append_assoc]
    have behind : next ((ls.flatMap fun l => mark "," :: l true) ++ rest) := by
      cases ls with
      | nil => exact follows
      | cons l ls => exact comma _
    refine bind_of (first spaced _ behind) ?_
    refine bind_of rfl (bind_of (moreAfterComma_takes comma others follows stop _ ?_) rfl)
    have bound : ls.length ≤ (ls.flatMap fun l => mark "," :: l true).length := by
      clear first others behind
      induction ls with
      | nil => exact Nat.le_refl _
      | cons l ls ih =>
        simp only [List.flatMap_cons, List.length_append, List.length_cons]
        omega
    rw [List.length_append]
    omega

theorem parenthesized_takes {p : Parse α} {ls : Bool → List Lexeme} {a : α}
    (inner : Takes p next ls a) (close : ∀ rest, next (mark ")" :: rest)) :
    Takes (parenthesized p) (fun _ => True)
      (fun spaced => ⟨.symbol "(", spaced⟩ :: (ls false ++ [mark ")"])) a := by
  intro spaced rest _
  rw [List.cons_append, List.append_assoc]
  refine bind_of (expect_here "(" _) ?_
  refine bind_of (inner false _ (close rest)) ?_
  exact bind_of (expect_here ")" _) rfl

end Lists

/-- A value's text reads as the value: it is some lexemes wherever it stands, and the parser gives
the value for them. -/
def ReadsBack {α : Type} (d : Dialect) (text : String) (p : Parse α) (next : List Lexeme → Prop)
    (a : α) : Prop :=
  ∃ ls, Spells d text ls ∧ Takes p next ls a

section Names

variable {d : Dialect} {α : Type} {item : Parse α} {next : List Lexeme → Prop}

theorem exists_lexings {render : α → String} {as : List α}
    (each : ∀ a ∈ as, ReadsBack d (render a) item next a) :
    ∃ ls, List.Forall₂ (Spells d) (as.map render) ls ∧ List.Forall₂ (Takes item next) ls as := by
  induction as with
  | nil => exact ⟨[], .nil, .nil⟩
  | cons a as ih =>
    rw [List.forall_mem_cons] at each
    obtain ⟨⟨l, spells, takes⟩, others⟩ := each
    obtain ⟨ls, spell, take⟩ := ih others
    exact ⟨l :: ls, .cons spells spell, .cons takes take⟩

/-- A list starts with the lexemes of its first item. -/
theorem commaList_opens {render : α → String} {a : α} {as : List α} {l : Bool → List Lexeme}
    (comma : ∀ rest, next (mark "," :: rest)) (spells : Spells d (render a) l)
    (takes : Takes item next l a) (each : ∀ a ∈ as, ReadsBack d (render a) item next a) :
    ∃ more, Spells d (commaJoin ((a :: as).map render)) (fun spaced => l spaced ++ more) ∧
      Takes (commaList item) (fun rest => next rest ∧ next? rest ≠ some (.symbol ","))
        (fun spaced => l spaced ++ more) (a :: as) := by
  obtain ⟨ls, spell, take⟩ := exists_lexings each
  have lexemes : commaLexemes (l :: ls) =
      fun spaced => l spaced ++ ls.flatMap fun l => mark "," :: l true :=
    funext fun spaced => commaLexemes_cons l ls spaced
  refine ⟨ls.flatMap fun l => mark "," :: l true, ?_, ?_⟩ <;> rw [← lexemes]
  · exact spells_commaJoin (.cons spells spell) (List.cons_ne_nil _ _)
  · exact commaList_takes comma (.cons takes take) (List.cons_ne_nil _ _)

theorem commaList_readsBack {render : α → String} {as : List α}
    (comma : ∀ rest, next (mark "," :: rest)) (nonempty : as ≠ [])
    (each : ∀ a ∈ as, ReadsBack d (render a) item next a) :
    ReadsBack d (commaJoin (as.map render)) (commaList item)
      (fun rest => next rest ∧ next? rest ≠ some (.symbol ",")) as := by
  obtain ⟨a, as, rfl⟩ := List.exists_cons_of_ne_nil nonempty
  rw [List.forall_mem_cons] at each
  obtain ⟨⟨l, spells, takes⟩, others⟩ := each
  obtain ⟨more, all⟩ := commaList_opens comma spells takes others
  exact ⟨_, all⟩

theorem parseNamePart_stops {rest : List Lexeme} (stop : next? rest ≠ some (.symbol ".")) :
    parseNamePart rest = .ok (none, rest) :=
  bind_of (eat_other stop) rfl

theorem parseName_takes (name : Name) (nonempty : name ≠ []) :
    Takes parseName (fun rest => next? rest ≠ some (.symbol ".")) (nameLexemes name) name := by
  obtain ⟨ident, parts, rfl⟩ := List.exists_cons_of_ne_nil nonempty
  intro spaced rest stop
  refine bind_of (a := ident) (m := partLexemes parts ++ rest) rfl ?_
  refine bind_of (repeated_items _ (parseNamePart_stops stop) parts ?_ ?_) rfl
  · exact fun part _ behind => bind_of (eat_here "." _) rfl
  · exact fun part _ => List.cons_ne_nil _ _

def identLexemes (ident : Ident) (spaced : Bool) : List Lexeme :=
  [⟨.word ident.text ident.quote, spaced⟩]

/-- A list of names in parentheses. -/
def columnLexemes (columns : List Ident) (spaced : Bool) : List Lexeme :=
  ⟨.symbol "(", spaced⟩ :: (commaLexemes (columns.map identLexemes) false ++ [mark ")"])

theorem spells_ident {ident : Ident} (plain : ident.isPlain d = true) :
    Spells d ident.render (identLexemes ident) := by
  have name : Spells d (Name.render [ident]) (nameLexemes [ident]) :=
    spells_name (List.cons_ne_nil _ _) (by simpa using plain)
  have same : Name.render [ident] = ident.render := by simp [Name.render]
  rw [same] at name
  exact name

theorem spells_columns {columns : List Ident} (listed : columns ≠ [])
    (plain : ∀ ident ∈ columns, ident.isPlain d = true) :
    Spells d ("(" ++ commaJoin (columns.map Ident.render) ++ ")") (columnLexemes columns) := by
  refine (spells_commaJoin ?_ (by simpa using listed)).parenthesized
  rw [List.forall₂_map_left_iff, List.forall₂_map_right_iff, List.forall₂_same]
  exact fun ident member => spells_ident (plain ident member)

theorem columns_take {columns : List Ident} (listed : columns ≠ []) :
    Takes parseColumnList (fun _ => True) (columnLexemes columns) columns := by
  have each : List.Forall₂ (Takes parseIdent fun _ => True) (columns.map identLexemes) columns := by
    rw [List.forall₂_map_left_iff, List.forall₂_same]
    exact fun ident _ _ _ _ => rfl
  have close : ∀ rest, True ∧ next? (mark ")" :: rest) ≠ some (.symbol ",") :=
    fun rest => ⟨trivial, by simp [mark]⟩
  exact parenthesized_takes (commaList_takes (fun _ => trivial) each listed) close

end Names

end SealedColumns.Sql
