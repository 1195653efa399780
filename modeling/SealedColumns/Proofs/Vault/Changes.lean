import SealedColumns.Proofs.Vault.Folder

/-!
What files change. A write changes the file that it names; a key in its place and its id in the
place of the current one are two writes; and directories are made where nothing was, so that no
file changes.
-/
namespace SealedColumns

open Text

open KeyDirectory

namespace Volume

variable {u v w : Volume} {home path : Path} {name : String}

/-- What a file holds. -/
def file? (v : Volume) (path : Path) : Option Bytes :=
  match v.find? path with
  | some (.file content) => some content
  | _ => none

/-- All files are as before, but those that were written. -/
def Writes (before after : Volume) (written : List (Path × Bytes)) : Prop :=
  ∀ place, after.file? place = (written.lookup place).or (before.file? place)

theorem file?_congr {place : Path} (same : w.find? place = v.find? place) :
    w.file? place = v.file? place := by
  rw [file?, file?, same]

theorem file?_eq_none (free : ¬ v.Holds home name) : v.file? (home ++ [name]) = none := by
  rw [file?, not_not.mp free]

theorem Writes.trans {first second : List (Path × Bytes)} (early : u.Writes v first)
    (late : v.Writes w second) : u.Writes w (second ++ first) := by
  intro place
  rw [late, early, List.lookup_append, Option.or_assoc]

theorem writes_put (nonempty : path ≠ []) (content : Bytes) :
    v.Writes (v.put path (.file content)) [(path, content)] := by
  intro place
  rw [file?, find?_put nonempty]
  by_cases here : place = path
  · simp [here]
  · have other : (place == path) = false := by simpa using here
    rw [if_neg here, List.lookup_cons, other, List.lookup_nil, Option.none_or]
    rfl

theorem writes_withKey (v : Volume) (home : Path) (id : String) (key : Bytes) :
    v.Writes (v.withKey home id key)
      [(home ++ [currentName], encodeUtf8 id), (home ++ [keyName id], key)] :=
  (writes_put (by simp) key).trans (writes_put (by simp) (encodeUtf8 id))

/-- Directories are made where nothing was, so no file changes. -/
theorem writes_makeDirectories {ground : Volume} (made : v.makeDirectories home = .ok ground) :
    v.Writes ground [] := by
  intro place
  obtain ⟨free, whole⟩ := makeDirectories_eq_ok made
  rw [List.lookup_nil, Option.none_or]
  by_cases member : place ∈ Path.heads home
  · rw [file?, file?, whole, if_pos member]
    obtain nothing | directory := free place member
    · rw [nothing]
    · rw [directory]
  · exact file?_congr ((whole place).trans (if_neg member))

end Volume

end SealedColumns
