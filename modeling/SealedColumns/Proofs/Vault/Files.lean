import Mathlib.Data.List.Basic
import SealedColumns.Volume

/-!
Files of one directory. A file is placed behind a directory by its name; what is put there changes
the look-up of its own path alone, and adds its name to the directory when it was not there.
-/
namespace SealedColumns

open Text

namespace Text

theorem startsWith_slash (s : String) : startsWith "/" s = (s.toList.head? == some '/') := by
  rw [startsWith]
  cases s.toList with
  | nil => rfl
  | cons c cs =>
    by_cases same : c = '/'
    · simp [dropHead?, same]
    · have other : ¬ '/' = c := fun h => same h.symm
      simp [dropHead?, same, other]

end Text

namespace Path

def partsOf (cs : List Char) : List String :=
  ((splitAll '/' cs).filter fun part => part != [] && part != ['.']).map String.ofList

theorem ofText_eq (text : String) :
    ofText text = if text.toList.head? = some '/' then "/" :: partsOf text.toList
      else partsOf text.toList := by
  simp [ofText, startsWith_slash, partsOf]

theorem partsOf_append (before after : List Char) :
    partsOf (before ++ '/' :: after) = partsOf before ++ partsOf after := by
  simp [partsOf, splitAll_append]

/-- A name that is a part of a path of its own. -/
structure IsName (name : String) : Prop where
  nonempty : name.toList ≠ []
  notHere : name.toList ≠ ['.']
  noSlash : '/' ∉ name.toList

theorem IsName.partsOf {name : String} (isName : IsName name) : partsOf name.toList = [name] := by
  simp [Path.partsOf, splitAll_of_notMem isName.noSlash, isName.nonempty, isName.notHere]

theorem ofText_join (directory : String) {name : String} (isName : IsName name) :
    ofText (join directory name) = ofText directory ++ [name] := by
  rcases empty : directory.toList.getLast? with _ | last
  · have relative : name.toList.head? ≠ some '/' :=
      fun first => isName.noSlash (List.mem_of_head? first)
    have nothing : directory.toList = [] := List.getLast?_eq_none_iff.mp empty
    have text : (join directory name).toList = name.toList := by
      simp only [join, empty]
      rw [String.toList_append, nothing, List.nil_append]
    simp only [ofText_eq, text, relative, nothing, isName.partsOf, if_false]
    rfl
  · have text : (join directory name).toList =
        if last = '/' then directory.toList ++ name.toList
        else directory.toList ++ '/' :: name.toList := by
      by_cases closed : last = '/' <;> simp [join, empty, closed]
    obtain ⟨before, shape⟩ := List.getLast?_eq_some_iff.mp empty
    -- the parts are those of the directory and then the name, whether or not a slash is added
    have parts : partsOf (join directory name).toList = partsOf directory.toList ++ [name] := by
      rw [text]
      by_cases closed : last = '/'
      · have nothing : partsOf [] = [] := rfl
        subst closed
        rw [if_pos rfl, shape, List.append_assoc, List.singleton_append, partsOf_append,
          partsOf_append, isName.partsOf, nothing, List.append_nil]
      · rw [if_neg closed, partsOf_append, isName.partsOf]
    have first : (join directory name).toList.head? = directory.toList.head? := by
      rw [text, shape]
      cases before <;> split <;> rfl
    rw [ofText_eq, ofText_eq, parts, first]
    split <;> rfl

theorem heads_dropLast (path : Path) (name : String) :
    (heads (path ++ [name])).dropLast = heads path := by
  rw [heads, heads, List.length_append, List.length_singleton, List.range_succ, List.map_append,
    List.map_singleton, List.dropLast_concat]
  apply List.map_congr_left
  intro count inside
  have short : count ≤ path.length := by
    rw [List.mem_range] at inside
    omega
  rw [List.take_append_of_le_length short]

theorem heads_eq (path : Path) : heads path = (heads path).dropLast ++ [path] := by
  rw [heads, List.range_succ, List.map_append, List.map_singleton, List.dropLast_concat,
    List.take_length]

theorem length_le_of_mem_heads {path head : Path} (member : head ∈ heads path) :
    head.length ≤ path.length := by
  obtain ⟨count, -, rfl⟩ := List.mem_map.mp member
  rw [List.length_take]
  omega

theorem mem_heads_self (path : Path) : path ∈ heads path := by
  refine List.mem_map.mpr ⟨path.length, ?_, List.take_length⟩
  rw [List.mem_range]
  omega

end Path

namespace Volume

variable {v : Volume} {path home : Path} {name : String}

/-- The names of the entries that stand in a directory. -/
def names (v : Volume) (directory : Path) : List String :=
  v.entries.filterMap fun (place, _) =>
    if place.dropLast == directory then Path.name? place else none

/-- A directory that is there, as are all that lead to it. -/
def Reached (v : Volume) (path : Path) : Prop :=
  ∀ head ∈ Path.heads path, v.find? head = some .directory

/-- Something in the directory has the name. -/
def Holds (v : Volume) (home : Path) (name : String) : Prop := v.find? (home ++ [name]) ≠ none

instance (v : Volume) (home : Path) (name : String) : Decidable (v.Holds home name) :=
  inferInstanceAs (Decidable (_ ≠ _))

theorem find?_of_ne_nil (nonempty : path ≠ []) : v.find? path = v.entries.lookup path := by
  cases path with
  | nil => contradiction
  | cons part path => rfl

theorem lookup_map_replace (entries : List (Path × Entry)) (path other : Path) (entry : Entry) :
    (entries.map fun e => if e.1 == path then (path, entry) else e).lookup other =
      if other = path ∧ entries.any (fun e => e.1 == path) then some entry
      else entries.lookup other := by
  induction entries with
  | nil => simp
  | cons e entries ih =>
    obtain ⟨place, old⟩ := e
    by_cases here : place = path
    · subst here
      by_cases same : other = place
      · simp [same]
      · have differs : (other == place) = false := by simpa using same
        simp only [List.map_cons, List.lookup_cons, beq_self_eq_true, if_true, differs, ih, same,
          false_and, if_false]
    · have stays : (place == path) = false := by simpa using here
      by_cases same : other = place
      · subst same
        simp [stays, here]
      · have differs : (other == place) = false := by simpa using same
        simp only [List.map_cons, stays, List.lookup_cons, differs, ih, List.any_cons,
          Bool.false_or, Bool.false_eq_true, if_false]

theorem lookup_eq_none_of_any (entries : List (Path × Entry)) {path : Path}
    (absent : ¬ entries.any (fun e => e.1 == path)) : entries.lookup path = none := by
  induction entries with
  | nil => rfl
  | cons e entries ih =>
    obtain ⟨place, old⟩ := e
    simp only [List.any_cons, Bool.or_eq_true, beq_iff_eq, not_or] at absent
    have differs : (path == place) = false := by
      rw [beq_eq_false_iff_ne]
      exact fun h => absent.1 h.symm
    rw [List.lookup_cons, differs]
    exact ih (by simpa using absent.2)

theorem find?_put (nonempty : path ≠ []) (entry : Entry) (other : Path) :
    (v.put path entry).find? other = if other = path then some entry else v.find? other := by
  by_cases root : other = []
  · have differs : other ≠ path := fun same => nonempty (same.symm.trans root)
    rw [if_neg differs, root]
    rfl
  · rw [find?_of_ne_nil root, find?_of_ne_nil root, put]
    split
    · case isTrue there =>
        simp only [lookup_map_replace, there, and_true]
    · case isFalse absent =>
        rw [List.lookup_append]
        by_cases same : other = path
        · subst same
          simp [lookup_eq_none_of_any _ absent]
        · have differs : (other == path) = false := by simpa using same
          simp only [List.lookup_cons, differs, List.lookup_nil, Option.or_none, same, if_false]

theorem Reached.put {entry : Entry} (reached : v.Reached home) :
    (v.put (home ++ [name]) entry).Reached home := by
  intro head member
  have short := Path.length_le_of_mem_heads member
  have other : head ≠ home ++ [name] := by
    intro same
    rw [same, List.length_append, List.length_singleton] at short
    omega
  rw [find?_put (by simp), if_neg other]
  exact reached head member

theorem names_put_new {entry : Entry} (nonempty : path ≠ []) (new : v.find? path = none)
    (directory : Path) :
    (v.put path entry).names directory =
      v.names directory ++ if path.dropLast = directory then path.getLast?.toList else [] := by
  have absent : ¬ v.entries.any (fun e => e.1 == path) := by
    intro there
    obtain ⟨e, member, same⟩ := List.any_eq_true.mp there
    rw [find?_of_ne_nil nonempty, List.lookup_eq_none_iff] at new
    have differs := new e member
    rw [beq_iff_eq.mp same, bne_self_eq_false] at differs
    contradiction
  rw [put, if_neg absent, names, names, List.filterMap_append]
  congr 1
  by_cases here : path.dropLast = directory
  · cases last : path.getLast? with
    | none => exact absurd (List.getLast?_eq_none_iff.mp last) nonempty
    | some name => simp [here, Path.name?, last]
  · simp [here]

theorem names_put_old {entry old : Entry} (nonempty : path ≠ []) (there : v.find? path = some old)
    (directory : Path) : (v.put path entry).names directory = v.names directory := by
  have present : v.entries.any (fun e => e.1 == path) = true := by
    by_contra absent
    rw [find?_of_ne_nil nonempty, lookup_eq_none_of_any _ absent] at there
    contradiction
  rw [put, if_pos present, names, names, List.filterMap_map]
  apply List.filterMap_congr
  intro e _
  by_cases here : e.1 = path
  · simp [here]
  · simp [here]

theorem mem_names : name ∈ v.names home ↔ v.Holds home name := by
  constructor
  · intro member
    obtain ⟨⟨place, entry⟩, there, named⟩ := List.mem_filterMap.mp member
    obtain ⟨inside, last⟩ := Option.ite_none_right_eq_some.mp named
    have shape : place = home ++ [name] := by
      rw [← beq_iff_eq.mp inside]
      exact (List.dropLast_append_getLast? name last).symm
    rw [Holds, find?_of_ne_nil (by simp), Ne, List.lookup_eq_none_iff]
    intro absent
    have differs := absent _ there
    rw [shape, bne_self_eq_false] at differs
    contradiction
  · intro held
    obtain ⟨entry, there⟩ := Option.ne_none_iff_exists'.mp held
    rw [find?_of_ne_nil (by simp)] at there
    obtain ⟨before, after, shape, -⟩ := List.lookup_eq_some_iff.mp there
    refine List.mem_filterMap.mpr ⟨(home ++ [name], entry), by simp [shape], ?_⟩
    simp [Path.name?]

theorem checkParents_eq_ok : v.checkParents path = .ok () ↔
    ∀ head ∈ (Path.heads path).dropLast, v.find? head = some .directory := by
  rw [checkParents]
  constructor
  · intro passed head member
    split at passed
    · contradiction
    · case h_2 clear =>
        have none := List.findSome?_eq_none_iff.mp clear head member
        split at none
        · assumption
        · contradiction
        · contradiction
  · intro directories
    split
    · case h_1 fault found =>
        obtain ⟨head, member, failed⟩ := List.exists_of_findSome?_eq_some found
        rw [directories head member] at failed
        contradiction
    · rfl

theorem checkParents_file : v.checkParents (home ++ [name]) = .ok () ↔ v.Reached home := by
  rw [checkParents_eq_ok, Path.heads_dropLast, Reached]

section Reached

variable (reached : v.Reached home)
include reached

theorem entry_file : v.entry (home ++ [name]) =
    match v.find? (home ++ [name]) with
    | some entry => .ok entry
    | none => .error .notFound := by
  rw [entry, checkParents_file.mpr reached]
  rfl

theorem has_file : v.has (home ++ [name]) = (v.find? (home ++ [name])).isSome := by
  rw [has, entry_file reached]
  cases v.find? (home ++ [name]) <;> rfl

theorem read_file {content : Bytes} (there : v.find? (home ++ [name]) = some (.file content)) :
    v.read (home ++ [name]) = .ok content := by
  rw [read, entry_file reached, there]
  rfl

theorem create_file (free : v.find? (home ++ [name]) = none) (content : Bytes) :
    v.create (home ++ [name]) content = .ok (v.put (home ++ [name]) (.file content)) := by
  rw [create, checkParents_file.mpr reached, free]
  rfl

theorem write_file (noDirectory : v.find? (home ++ [name]) ≠ some .directory) (content : Bytes) :
    v.write (home ++ [name]) content = .ok (v.put (home ++ [name]) (.file content)) := by
  rw [write, checkParents_file.mpr reached]
  rcases there : v.find? (home ++ [name]) with _ | old | _
  · rfl
  · rfl
  · contradiction

theorem write_directory (directory : v.find? (home ++ [name]) = some .directory)
    (content : Bytes) : v.write (home ++ [name]) content = .error .isDirectory := by
  rw [write, checkParents_file.mpr reached, directory]
  rfl

theorem entry_directory : v.entry home = .ok .directory := by
  have parents : v.checkParents home = .ok () :=
    checkParents_eq_ok.mpr fun head member => reached head ((List.dropLast_subset _) member)
  rw [entry, parents, reached home (Path.mem_heads_self home)]
  rfl

theorem isDirectory_of_reached : v.isDirectory home = true := by
  rw [isDirectory, entry_directory reached]

theorem list_directory : v.list home = .ok (v.names home) := by
  rw [list, entry_directory reached]
  rfl

end Reached

theorem reached_of_isDirectory (directory : v.isDirectory home = true) : v.Reached home := by
  rw [isDirectory, entry] at directory
  rcases parents : v.checkParents home with e | u
  · rw [parents] at directory
    contradiction
  · rcases there : v.find? home with _ | _ | _
    · rw [parents, there] at directory
      contradiction
    · rw [parents, there] at directory
      contradiction
    · intro head member
      rw [Path.heads_eq, List.mem_append, List.mem_singleton] at member
      obtain before | rfl := member
      · exact checkParents_eq_ok.mp parents head before
      · exact there

section Directories

theorem makeDirectory_eq_ok {after : Volume} (made : v.makeDirectory path = .ok after) :
    (v.find? path = none ∨ v.find? path = some .directory) ∧
      ∀ place, after.find? place = if place = path then some .directory else v.find? place := by
  unfold makeDirectory at made
  split at made
  · rename_i there
    cases made
    refine ⟨.inr there, fun place => ?_⟩
    split
    · rename_i same
      rw [same, there]
    · rfl
  · cases made
  · rename_i free
    cases made
    refine ⟨.inl free, find?_put ?_ .directory⟩
    rintro rfl
    cases free

/-- Directories are made where nothing was, and nothing else changes. -/
theorem makeDirectories_eq_ok {after : Volume} (made : v.makeDirectories path = .ok after) :
    (∀ head ∈ Path.heads path, v.find? head = none ∨ v.find? head = some .directory) ∧
      ∀ place, after.find? place =
        if place ∈ Path.heads path then some .directory else v.find? place := by
  have all : ∀ (heads : List Path) (v : Volume), heads.foldlM makeDirectory v = .ok after →
      (∀ head ∈ heads, v.find? head = none ∨ v.find? head = some .directory) ∧
        ∀ place, after.find? place = if place ∈ heads then some .directory else v.find? place := by
    intro heads
    induction heads with
    | nil =>
      intro v made
      cases made
      exact ⟨fun _ member => absurd member List.not_mem_nil, fun _ => rfl⟩
    | cons head heads ih =>
      intro v made
      rw [List.foldlM_cons] at made
      rcases step : v.makeDirectory head with e | next
      · rw [step] at made
        cases made
      · rw [step] at made
        obtain ⟨free, changed⟩ := makeDirectory_eq_ok step
        obtain ⟨rest, whole⟩ := ih next made
        refine ⟨fun other member => ?_, fun place => ?_⟩
        · by_cases same : other = head
          · rw [same]
            exact free
          · have later := rest other ((List.mem_cons.mp member).resolve_left same)
            rwa [changed, if_neg same] at later
        · rw [whole, changed]
          by_cases same : place = head <;> by_cases member : place ∈ heads <;> simp [same, member]
  unfold makeDirectories at made
  split at made
  · cases made
  · exact all _ v made

variable {ground : Volume} (made : v.makeDirectories home = .ok ground)
include made

theorem reached_makeDirectories : ground.Reached home := by
  intro head member
  rw [(makeDirectories_eq_ok made).2, if_pos member]

theorem find?_makeDirectories (name : String) :
    ground.find? (home ++ [name]) = v.find? (home ++ [name]) := by
  refine ((makeDirectories_eq_ok made).2 _).trans (if_neg fun member => ?_)
  have short := Path.length_le_of_mem_heads member
  rw [List.length_append, List.length_singleton] at short
  omega

end Directories

end Volume

end SealedColumns
