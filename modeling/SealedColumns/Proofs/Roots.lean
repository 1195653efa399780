import SealedColumns.Proofs.Lens
import SealedColumns.Proofs.ReadBack

/-!
Paths by their roots. A path is cut at its first point or bracket, and what it leads to is what the
rest leads to in the member that its root names. So a parameter reads the same value wherever the
object stands that its root names. One kind of rest reads nothing on its own: points without a name
between them are skipped behind a root, and are no path without one.
-/
namespace SealedColumns

open Text

namespace Property

/-- Points and nothing else. -/
def Dotted (rest : String) : Prop := rest ≠ "" ∧ ∀ c ∈ rest.toList, c = '.'

/-- The segments that a text has between its points, of which there may be none. -/
def parts? (cs : List Char) : Option Place := joinSegments? (splitAll '.' cs)

section Parts

theorem segments?_eq (path : String) :
    segments? path = (parts? path.toList).filter (!·.isEmpty) := by
  rw [segments?, parts?]
  cases joinSegments? (splitAll '.' path.toList) with
  | none => rfl
  | some place => cases place <;> rfl

theorem joinSegments?_cons (part : List Char) (parts : List (List Char)) :
    joinSegments? (part :: parts) =
      (partSegments? part).bind fun here => (joinSegments? parts).map (here ++ ·) := by
  rw [joinSegments?]
  cases partSegments? part with
  | none => rfl
  | some here => cases joinSegments? parts <;> rfl

/-- Indexes are read to the end of the text, however much fuel there is for them. -/
theorem indexes?_of_le {cs : List Char} {fuel fuel' : Nat} (enough : cs.length ≤ fuel)
    (enough' : cs.length ≤ fuel') : indexes? fuel cs = indexes? fuel' cs := by
  induction fuel generalizing cs fuel' with
  | zero =>
    cases List.length_eq_zero_iff.mp (Nat.le_zero.mp enough)
    cases fuel' <;> rfl
  | succ fuel ih =>
    cases cs with
    | nil => cases fuel' <;> rfl
    | cons c rest =>
      cases fuel' with
      | zero => exact absurd enough' (Nat.not_succ_le_zero _)
      | succ fuel' =>
        simp only [indexes?]
        split
        · rfl
        · split
          · rfl
          · rename_i after behind
            have shorter := List.length_dropWhile_le (· != ']') rest
            rw [behind, List.length_cons] at shorter
            rw [List.length_cons] at enough enough'
            have same : indexes? fuel after = indexes? fuel' after := ih (by omega) (by omega)
            rw [same]

theorem indexes?_ne_nil (fuel : Nat) (c : Char) (rest : List Char) :
    indexes? fuel (c :: rest) ≠ some [] := by
  cases fuel with
  | zero => exact nofun
  | succ fuel =>
    simp only [indexes?]
    split
    · exact nofun
    · split
      · exact nofun
      · simp [Option.bind_eq_some_iff]

/-- A part that is not empty has a name or an index. -/
theorem partSegments?_ne_nil (c : Char) (rest : List Char) :
    partSegments? (c :: rest) ≠ some [] := by
  intro nothing
  obtain ⟨more, read, shape⟩ := Option.bind_eq_some_iff.mp nothing
  by_cases bracket : c = '['
  · subst bracket
    rw [List.takeWhile_cons_of_neg (by decide)] at shape
    rw [List.dropWhile_cons_of_neg (by decide)] at read
    exact indexes?_ne_nil _ _ _ (read.trans shape)
  · rw [List.takeWhile_cons_of_pos (by simpa using bracket)] at shape
    cases shape

theorem partSegments?_root {root part : List Char} (filled : root ≠ [])
    (free : ∀ c ∈ root, isSeparator c = false) (opens : part.takeWhile (· != '[') = []) :
    partSegments? (root ++ part) =
      (partSegments? part).map (.key (String.ofList root) :: ·) := by
  have plain : ∀ c ∈ root, (c != '[') = true := fun c member => by
    have other := free c member
    simp only [isSeparator, Bool.or_eq_false_iff] at other
    rw [bne, other.2, Bool.not_false]
  have bracket : part.dropWhile (· != '[') = part := by
    have whole := List.takeWhile_append_dropWhile (p := (· != '[')) (l := part)
    rwa [opens, List.nil_append] at whole
  have fuel : indexes? (root ++ part).length part = indexes? part.length part :=
    indexes?_of_le (by simp) (Nat.le_refl _)
  rw [partSegments?, partSegments?, List.takeWhile_append_of_pos plain,
    List.dropWhile_append_of_pos plain, opens, bracket, fuel, List.append_nil]
  cases indexes? part.length part with
  | none => rfl
  | some more => simp [filled]

/-- What stands behind a root: nothing, or what starts with a point or a bracket. -/
inductive Behind : List Char → Prop where
  | nothing : Behind []
  | point (rest : List Char) : Behind ('.' :: rest)
  | bracket (rest : List Char) : Behind ('[' :: rest)

theorem Behind.splitAll {behind : List Char} (here : Behind behind) :
    ∃ part parts, splitAll '.' behind = part :: parts ∧ part.takeWhile (· != '[') = [] := by
  cases here with
  | nothing => exact ⟨[], [], rfl, rfl⟩
  | point rest => exact ⟨[], _, splitAll_separator '.' rest, rfl⟩
  | bracket rest =>
    obtain ⟨part, parts, split⟩ := exists_splitAll '.' rest
    refine ⟨'[' :: part, parts, ?_, List.takeWhile_cons_of_neg (by decide)⟩
    rw [splitAll_other (by decide), split, List.modifyHead_cons]

/-- A root is one segment in front of those behind it. -/
theorem parts?_root {root behind : List Char} (filled : root ≠ [])
    (free : ∀ c ∈ root, isSeparator c = false) (here : Behind behind) :
    parts? (root ++ behind) = (parts? behind).map (.key (String.ofList root) :: ·) := by
  have noPoint : '.' ∉ root := fun member => by cases free _ member
  obtain ⟨part, parts, split, opens⟩ := here.splitAll
  rw [parts?, parts?, splitAll_append_of_notMem noPoint, split, List.modifyHead_cons,
    joinSegments?_cons, joinSegments?_cons, partSegments?_root filled free opens]
  cases partSegments? part with
  | none => rfl
  | some here => cases joinSegments? parts <;> rfl

theorem parts?_point (rest : List Char) : parts? ('.' :: rest) = parts? rest := by
  have nothing : partSegments? [] = some [] := rfl
  rw [parts?, splitAll_separator, joinSegments?_cons, nothing, Option.bind_some]
  exact Option.map_id'

/-- Only points have no segments between them. -/
theorem parts?_eq_some_nil (cs : List Char) : parts? cs = some [] ↔ ∀ c ∈ cs, c = '.' := by
  induction cs with
  | nil => exact iff_of_true rfl nofun
  | cons c rest ih =>
    by_cases point : c = '.'
    · rw [point, parts?_point, ih]
      simp
    · obtain ⟨part, parts, split⟩ := exists_splitAll '.' rest
      refine iff_of_false (fun nothing => ?_) fun points => point (points c List.mem_cons_self)
      rw [parts?, splitAll_other point, split, List.modifyHead_cons, joinSegments?_cons] at nothing
      obtain ⟨here, found, rest⟩ := Option.bind_eq_some_iff.mp nothing
      obtain ⟨more, -, none⟩ := Option.map_eq_some_iff.mp rest
      have empty := (List.append_eq_nil_iff.mp none).1
      exact partSegments?_ne_nil _ _ (found.trans (congrArg some empty))

end Parts

section Roots

variable {path rest : String}

theorem splitRoot_behind (path : String) :
    ∃ behind, Behind behind ∧ path.toList = (splitRoot path).1.toList ++ behind ∧
      parts? behind = parts? (splitRoot path).2.toList := by
  have whole := List.takeWhile_append_dropWhile (p := fun c => !isSeparator c) (l := path.toList)
  cases stop : path.toList.dropWhile fun c => !isSeparator c with
  | nil =>
    rw [stop] at whole
    refine ⟨[], .nothing, ?_, ?_⟩
    · simp [splitRoot, stop, whole]
    · simp [splitRoot, stop]
  | cons c more =>
    have separator : isSeparator c = true := by
      have head := List.head?_dropWhile_not (fun c => !isSeparator c) path.toList
      rw [stop] at head
      simpa using head
    rw [stop] at whole
    by_cases point : c = '.'
    · subst point
      refine ⟨'.' :: more, .point more, ?_, ?_⟩
      · simp [splitRoot, stop, whole]
      · simp [splitRoot, stop, parts?_point]
    · have bracket : c = '[' := by simpa [isSeparator, point] using separator
      subst bracket
      refine ⟨'[' :: more, .bracket more, ?_, ?_⟩
      · simp [splitRoot, stop, whole]
      · simp [splitRoot, stop]

theorem place?_dotted (dotted : Dotted rest) : place? rest = none := by
  rw [place?, if_neg dotted.1, segments?_eq, (parts?_eq_some_nil _).mpr dotted.2]
  rfl

theorem place?_undotted (undotted : ¬ Dotted rest) : place? rest = parts? rest.toList := by
  by_cases empty : rest = ""
  · subst empty
    rfl
  · rw [place?, if_neg empty, segments?_eq]
    cases found : parts? rest.toList with
    | none => rfl
    | some place =>
      cases place with
      | nil => exact absurd ⟨empty, (parts?_eq_some_nil _).mp found⟩ undotted
      | cons => rfl

theorem place?_root (named : (splitRoot path).1 ≠ "") :
    place? path = (parts? (splitRoot path).2.toList).map (.key (splitRoot path).1 :: ·) := by
  obtain ⟨behind, here, whole, same⟩ := splitRoot_behind path
  have filled : (splitRoot path).1.toList ≠ [] := fun nothing =>
    named (String.toList_injective nothing)
  have parts : parts? path.toList =
      (parts? (splitRoot path).2.toList).map (.key (splitRoot path).1 :: ·) := by
    rw [whole, parts?_root filled (isRoot_splitRoot path) here, same, String.ofList_toList]
  have named' : path ≠ "" := by
    rintro rfl
    exact named rfl
  rw [place?, if_neg named', segments?_eq, parts]
  cases parts? (splitRoot path).2.toList <;> rfl

/-- Behind a root a path leads on from the member that the root names. -/
theorem get?_undotted (named : (splitRoot path).1 ≠ "") (undotted : ¬ Dotted (splitRoot path).2)
    (value : Json) :
    get? value path = (value.field? (splitRoot path).1).bind (get? · (splitRoot path).2) := by
  have member : ∀ inner, get? inner (splitRoot path).2 =
      (parts? (splitRoot path).2.toList).bind (getAt? inner) := fun inner => by
    rw [get?_eq, place?_undotted undotted]
  calc get? value path
      = (parts? (splitRoot path).2.toList).bind fun place =>
          (value.field? (splitRoot path).1).bind (getAt? · place) := by
        rw [get?_eq, place?_root named, Option.bind_map]
        rfl
    _ = (value.field? (splitRoot path).1).bind fun inner =>
          (parts? (splitRoot path).2.toList).bind (getAt? inner) := Option.bind_comm _ _
    _ = _ := by simp only [member]

theorem get?_dotted (named : (splitRoot path).1 ≠ "") (dotted : Dotted (splitRoot path).2)
    (value : Json) : get? value path = value.field? (splitRoot path).1 := by
  rw [get?_eq, place?_root named, (parts?_eq_some_nil _).mpr dotted.2]
  exact Option.bind_fun_some _

end Roots

end Property

open Property

/-- One value under a root, among the additional parameters of `p` and in the parameter object of
`q`. -/
structure Parameters.HeldApart (p q : Parameters) (root : String) (value : Json) : Prop where
  stored : p.additional.get? root = some value
  unstored : q.additional.get? root = none
  within : q.object.field? root = some value

theorem Json.isScalar_of_field? {value member : Json} {key : String}
    (found : value.field? key = some member) : value.isScalar = false := by
  cases value with
  | object => rfl
  | _ => cases found

/-- What a path reads, from a value and as the property of a parameter, by its root and its rest. -/
structure RootRead (path root rest : String) : Prop where
  along : ¬ Dotted rest → ∀ value, get? value path = (value.field? root).bind (get? · rest)
  dotted : Dotted rest → ∀ value, get? value path = value.field? root ∧ get? value rest = none
  alike : ¬ Dotted rest → ∀ (p q : Parameters) value, p.HeldApart q root value →
    ∀ mapping, mapping.property = path → p.valueOf mapping = q.valueOf mapping
  unlike : Dotted rest → ∀ (p q : Parameters) value, p.HeldApart q root value →
    ∀ mapping, mapping.property = path → mapping.mode ≠ .output →
      p.valueOf mapping = .null ∧ q.valueOf mapping = value

/-- A path with a root leads where its rest leads from the member under the root, and is read alike
from a value held under the root in either store, unless its rest is made of points alone. -/
theorem root_read (path : String) (named : (splitRoot path).1 ≠ "") :
    RootRead path (splitRoot path).1 (splitRoot path).2 := by
  refine ⟨get?_undotted named, fun dotted value => ⟨get?_dotted named dotted value, ?_⟩, ?_, ?_⟩
  · rw [get?_eq, place?_dotted dotted]
    rfl
  · rintro undotted p q value ⟨stored, unstored, within⟩ mapping rfl
    by_cases output : mapping.mode = .output
    · simp only [Parameters.valueOf, if_pos output]
    · rw [Parameters.valueOf_stored output stored,
        Parameters.valueOf_structured output unstored (Json.isScalar_of_field? within),
        get?_undotted named undotted, within, Option.bind_some]
  · rintro dotted p q value ⟨stored, unstored, within⟩ mapping rfl input
    constructor
    · rw [Parameters.valueOf_stored input stored, get?_eq, place?_dotted dotted]
      rfl
    · rw [Parameters.valueOf_structured input unstored (Json.isScalar_of_field? within),
        get?_dotted named dotted, within, Option.getD_some]

/-- An index behind a root, and points alone behind one. -/
theorem root_read_both :
    ((splitRoot "list[0].name").1 ≠ "" ∧ RootRead "list[0].name" "list" "[0].name") ∧
    ((splitRoot "list..").1 ≠ "" ∧ RootRead "list.." "list" "." ∧ Dotted ".") := by
  have index : splitRoot "list[0].name" = ("list", "[0].name") := by with_unfolding_all rfl
  have points : splitRoot "list.." = ("list", ".") := by with_unfolding_all rfl
  have named : (splitRoot "list[0].name").1 ≠ "" := by
    rw [index]
    decide
  have named' : (splitRoot "list..").1 ≠ "" := by
    rw [points]
    decide
  have read := root_read "list[0].name" named
  have read' := root_read "list.." named'
  rw [index] at read
  rw [points] at read'
  have point : Dotted "." := ⟨by decide, by simp⟩
  exact ⟨⟨named, read⟩, named', read', point⟩

end SealedColumns
