/-!
Letter case for ASCII letters only; every other character is left as it is.
-/
namespace SealedColumns.Text

def asciiLower (s : String) : String := String.ofList (s.toList.map Char.toLower)

/-- Only the capital letters change, and each into a small one. -/
theorem toLower_eq_self_or (c : Char) : c.toLower = c ∨
    (65 ≤ c.toNat ∧ c.toNat ≤ 90) ∧ 97 ≤ c.toLower.toNat ∧ c.toLower.toNat ≤ 122 := by
  by_cases upper : c.val ≥ 'A'.val ∧ c.val ≤ 'Z'.val
  · have first : 65 ≤ c.toNat := upper.1
    have last : c.toNat ≤ 90 := upper.2
    have moved : c.toLower.toNat = (c.toNat + 32) % 4294967296 :=
      congrArg Char.toNat (dif_pos upper)
    omega
  · exact .inl (dif_neg upper)

def equalIgnoringCase (s t : String) : Bool := asciiLower s == asciiLower t

/-- ASCII uppercase, and the few other characters whose full uppercase form is made of ASCII
letters alone: dotless i, long s, sharp s and the Latin ligatures. -/
def foldUpper (c : Char) : List Char :=
  match c.toNat with
  | 0x131 => ['I']
  | 0x17F => ['S']
  | 0xDF => ['S', 'S']
  | 0xFB00 => ['F', 'F']
  | 0xFB01 => ['F', 'I']
  | 0xFB02 => ['F', 'L']
  | 0xFB03 => ['F', 'F', 'I']
  | 0xFB04 => ['F', 'F', 'L']
  | 0xFB05 => ['S', 'T']
  | 0xFB06 => ['S', 'T']
  | _ => [c.toUpper]

def keywordText (s : String) : String := String.ofList (s.toList.flatMap foldUpper)

def splitFirst (separator : Char) (s : String) : Option (String × String) :=
  let (before, rest) := s.toList.span (· != separator)
  match rest with
  | [] => none
  | _ :: after => some (String.ofList before, String.ofList after)

def splitLast (separator : Char) (s : String) : Option (String × String) :=
  let (after, rest) := s.toList.reverse.span (· != separator)
  match rest with
  | [] => none
  | _ :: before => some (String.ofList before.reverse, String.ofList after.reverse)

/-- The pieces between separators; a text without separator is its own only piece. -/
def splitAll (separator : Char) : List Char → List (List Char)
  | [] => [[]]
  | c :: rest =>
    if c == separator then [] :: splitAll separator rest
    else
      match splitAll separator rest with
      | [] => [[c]]
      | piece :: pieces => (c :: piece) :: pieces

section Pieces

variable {separator : Char}

theorem exists_splitAll (separator : Char) (cs : List Char) :
    ∃ piece pieces, splitAll separator cs = piece :: pieces := by
  cases cs with
  | nil => exact ⟨[], [], rfl⟩
  | cons c rest =>
    simp only [splitAll]
    split
    · exact ⟨_, _, rfl⟩
    · split
      · exact ⟨_, _, rfl⟩
      · exact ⟨_, _, rfl⟩

theorem splitAll_separator (separator : Char) (rest : List Char) :
    splitAll separator (separator :: rest) = [] :: splitAll separator rest := by
  rw [splitAll, if_pos (beq_self_eq_true separator)]

theorem splitAll_other {c : Char} (other : c ≠ separator) (rest : List Char) :
    splitAll separator (c :: rest) = (splitAll separator rest).modifyHead (c :: ·) := by
  obtain ⟨piece, pieces, split⟩ := exists_splitAll separator rest
  have different : ¬ (c == separator) = true := fun same => other (eq_of_beq same)
  rw [splitAll, if_neg different, split]
  rfl

/-- What stands in front of the first separator only makes the first piece longer. -/
theorem splitAll_append_of_notMem {front : List Char} (free : separator ∉ front)
    (cs : List Char) :
    splitAll separator (front ++ cs) = (splitAll separator cs).modifyHead (front ++ ·) := by
  obtain ⟨piece, pieces, split⟩ := exists_splitAll separator cs
  induction front with
  | nil => rw [List.nil_append, split, List.modifyHead_cons, List.nil_append]
  | cons c front ih =>
    have other : c ≠ separator := fun same => free (same ▸ List.mem_cons_self)
    rw [List.cons_append, splitAll_other other,
      ih fun member => free (List.mem_cons_of_mem _ member), split]
    rfl

theorem splitAll_of_notMem {cs : List Char} (free : separator ∉ cs) :
    splitAll separator cs = [cs] := by
  have alone := splitAll_append_of_notMem free []
  rwa [List.append_nil, splitAll, List.modifyHead_cons, List.append_nil] at alone

theorem splitAll_append (separator : Char) (before after : List Char) :
    splitAll separator (before ++ separator :: after) =
      splitAll separator before ++ splitAll separator after := by
  induction before with
  | nil => exact splitAll_separator separator after
  | cons c before ih =>
    by_cases same : c = separator
    · rw [same, List.cons_append, splitAll_separator, splitAll_separator, ih, List.cons_append]
    · obtain ⟨piece, pieces, split⟩ := exists_splitAll separator before
      rw [List.cons_append, splitAll_other same, splitAll_other same, ih, split]
      rfl

end Pieces

def joinWith (separator : String) (pieces : List String) : String :=
  String.intercalate separator pieces

/-- What is left of `cs` after `head`, when it starts with it. -/
def dropHead? : List Char → List Char → Option (List Char)
  | [], cs => some cs
  | _ :: _, [] => none
  | h :: head, c :: cs => if h == c then dropHead? head cs else none

def startsWith (head s : String) : Bool := (dropHead? head.toList s.toList).isSome

/-- The text between `head` and `tail`; the two may not overlap. -/
def between? (head tail s : String) : Option String := do
  let rest ← dropHead? head.toList s.toList
  let inner ← dropHead? tail.toList.reverse rest.reverse
  pure (String.ofList inner.reverse)

end SealedColumns.Text
