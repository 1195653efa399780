import SealedColumns.Proofs.Vault.Founding

/-!
Rotation of any key directory, whatever the names of its keys. The new key has a number above all
others, is the only one that is made, and becomes the current one. Numbers end, though: after the
last one the next is zero, which is below the others, and may be taken.
-/
namespace SealedColumns

open Text KeyDirectory

namespace Volume

variable {v : Volume} {home : Path}

/-- An id is found where something has the name of its key. -/
theorem mem_ids {id : String} :
    id ∈ (v.names home).filterMap keyId? ↔ v.Holds home (keyName id) := by
  rw [List.mem_filterMap, ← mem_names]
  constructor
  · rintro ⟨name, member, same⟩
    rwa [keyName, ← between?_eq_some.mp same]
  · intro member
    exact ⟨_, member, keyId?_keyName id⟩

end Volume

namespace KeyDirectory

variable {path : String} {d : KeyDirectory} {s s' : KeyStore}

theorem open?_eq_ok {volume : Volume} (opened : open? volume path = .ok d) :
    d = ⟨path⟩ ∧ path ≠ "" ∧ volume.Reached (Path.ofText path) := by
  unfold open? at opened
  split at opened
  · rename_i there
    simp only [Bool.and_eq_true, Bool.not_eq_true', String.isEmpty_eq_false_iff] at there
    cases opened
    exact ⟨rfl, there.1, Volume.reached_of_isDirectory there.2⟩
  · contradiction

/-- What a rotation is to leave: one new key, which is current, and all else as it was. -/
structure Rotated (path : String) (s : KeyStore) (n : Nat) (s' : KeyStore) : Prop where
  free : ¬ s.volume.Holds (Path.ofText path) (keyName (versionId n))
  key : ∃ key, key.length = keySize ∧
    (KeyDirectory.mk path).key s'.volume (versionId n) = .ok key
  current : (KeyDirectory.mk path).currentId s'.volume = .ok (versionId n)
  rest : ∀ place, place ≠ Path.ofText path ++ [currentName] →
    place ≠ Path.ofText path ++ [keyName (versionId n)] →
      s'.volume.find? place = s.volume.find? place

/-- All that a rotation to a number can come to. -/
inductive Rotation (path : String) (s : KeyStore) (n : Nat) :
    Except KeyError String → KeyStore → Prop where
  | taken : s.volume.Holds (Path.ofText path) (keyName (versionId n)) →
      Rotation path s n (.error (.creation (.keyExists (versionId n)))) s
  | blocked {s' : KeyStore} :
      s.volume.find? (Path.ofText path ++ [currentName]) = some .directory →
        Rotation path s n (.error (.file .isDirectory)) s'
  | rotated {s' : KeyStore} : Rotated path s n s' → Rotation path s n (.ok (versionId n)) s'

theorem Rotation.number_eq {m n : Nat} (rotation : Rotation path s n (.ok (versionId m)) s') :
    m = n := by
  generalize given : versionId m = id at rotation
  cases rotation
  exact versionId_injective given

theorem Rotation.current_of_fault {n : Nat} {cause : FileError}
    (rotation : Rotation path s n (.error (.file cause)) s') :
    s.volume.find? (Path.ofText path ++ [currentName]) = some .directory := by
  cases rotation
  assumption

theorem rotated_withKey {n : Nat} {key : Bytes} {supply : Supply}
    (reached : s.volume.Reached (Path.ofText path))
    (free : ¬ s.volume.Holds (Path.ofText path) (keyName (versionId n)))
    (size : key.length = keySize) :
    Rotated path s n ⟨s.volume.withKey (Path.ofText path) (versionId n) key, supply⟩ := by
  have differs : Path.ofText path ++ [keyName (versionId n)] ≠ Path.ofText path ++ [currentName] :=
    Volume.concat_ne (keyName_ne keyId?_currentName)
  constructor
  · exact free
  · refine ⟨key, size, key_of_file reached.put.put rfl (isKeyId_versionId n) ?_ size⟩
    exact (Volume.find?_withKey _ _ _ _ _).trans ((if_neg differs).trans (if_pos rfl))
  · exact currentId_of_file reached.put.put rfl Volume.find?_concat_put_self
  · intro place noCurrent noKey
    exact (Volume.find?_withKey _ _ _ _ _).trans ((if_neg noCurrent).trans (if_neg noKey))

theorem rotation_rotate (reached : s.volume.Reached (Path.ofText path)) (named : path ≠ "") :
    Rotation path s (nextVersion ((s.volume.names (Path.ofText path)).filterMap keyId?))
      ((KeyDirectory.mk path).rotate.run s).1 ((KeyDirectory.mk path).rotate.run s).2 := by
  generalize next : nextVersion ((s.volume.names (Path.ofText path)).filterMap keyId?) = n
  have installed := run_installKey (d := ⟨path⟩) rfl (isKeyId_versionId n) reached
  by_cases taken : s.volume.find? (Path.ofText path ++ [keyName (versionId n)]) ≠ none
  · rw [if_pos taken] at installed
    rw [(raises_rotate reached rfl named next).mpr installed]
    exact .taken taken
  rw [if_neg taken] at installed
  by_cases directory : s.volume.find? (Path.ofText path ++ [currentName]) = some .directory
  · rw [if_pos directory] at installed
    rw [(raises_rotate reached rfl named next).mpr installed]
    exact .blocked directory
  · rw [if_neg directory] at installed
    rw [(gives_rotate reached rfl named next).mpr ⟨rfl, installed⟩]
    exact .rotated (rotated_withKey reached taken (s.supply.draw_length _))

end KeyDirectory

/-- Whatever the keys of a directory, a rotation gives a key with a number above all of them, and
nothing else, unless one of them has the last number. Then the rotation goes back to zero, or to
nothing if there is such a key. -/
theorem rotate_newer_iff {path : String} {s : KeyStore} {d : KeyDirectory}
    (opened : open? s.volume path = .ok d)
    (noFault : ∀ cause, (d.rotate.run s).1 ≠ .error (.file cause)) :
    ((∃ n s', d.rotate.run s = (.ok (versionId n), s') ∧ Rotated path s n s' ∧
        ∀ id, s.volume.Holds (Path.ofText path) (keyName id) →
          ∀ m, version? id = some m → m < n) ↔
      ∀ id, s.volume.Holds (Path.ofText path) (keyName id) → version? id ≠ some (2 ^ 64 - 1)) ∧
    ∀ id, s.volume.Holds (Path.ofText path) (keyName id) → version? id = some (2 ^ 64 - 1) →
      s.volume.Holds (Path.ofText path) (keyName "v0") ∧
          d.rotate.run s = (.error (.creation (.keyExists "v0")), s) ∨
        ∃ s', d.rotate.run s = (.ok "v0", s') ∧ Rotated path s 0 s' := by
  obtain ⟨rfl, named, reached⟩ := open?_eq_ok opened
  obtain ⟨ids, found⟩ : ∃ ids, (s.volume.names (Path.ofText path)).filterMap keyId? = ids :=
    ⟨_, rfl⟩
  have present : ∀ {id}, s.volume.Holds (Path.ofText path) (keyName id) → id ∈ ids :=
    fun held => found ▸ Volume.mem_ids.mpr held
  have rotation := rotation_rotate reached named
  rw [found] at rotation
  rcases ran : (KeyDirectory.mk path).rotate.run s with ⟨outcome, s'⟩
  rw [ran] at rotation noFault
  refine ⟨⟨?_, fun unused => ?_⟩, fun id held last => ?_⟩
  · rintro ⟨n, after, same, -, above⟩ id held last
    cases same
    have below := above id held _ last
    have bound := nextVersion_lt ids
    have size : word64 = 2 ^ 64 := rfl
    rw [← rotation.number_eq] at bound
    omega
  · have above : ∀ id ∈ ids, version? id ≠ some (word64 - 1) := by
      intro id member
      rw [← found] at member
      exact unused id (Volume.mem_ids.mp member)
    cases rotation with
    | taken held =>
      have less := lt_nextVersion above (present held) (version?_versionId (nextVersion_lt ids))
      exact absurd less (Nat.lt_irrefl _)
    | blocked directory => exact absurd rfl (noFault _)
    | rotated rotated =>
      exact ⟨_, s', rfl, rotated, fun id held m => lt_nextVersion above (present held)⟩
  · have zero : versionId 0 = "v0" := by decide
    rw [nextVersion_eq_zero (present held) last] at rotation
    rw [← zero]
    cases rotation with
    | taken held => exact .inl ⟨held, rfl⟩
    | blocked directory => exact absurd rfl (noFault _)
    | rotated rotated => exact .inr ⟨s', rfl, rotated⟩

namespace Sample

/-- Numbers with zeros and a sign in front, and an id without a number. -/
def spelledKeys : KeyStore := keysNamed ["v007", "v+5", "old"]

theorem rotate_newer_spelled :
    open? spelledKeys.volume "keys" = .ok ⟨"keys"⟩ ∧
      (∀ cause, ((KeyDirectory.mk "keys").rotate.run spelledKeys).1 ≠ .error (.file cause)) ∧
      ∃ n s', (KeyDirectory.mk "keys").rotate.run spelledKeys = (.ok (versionId n), s') ∧
        Rotated "keys" spelledKeys n s' ∧
        ∀ id, spelledKeys.volume.Holds (Path.ofText "keys") (keyName id) →
          ∀ m, version? id = some m → m < n := by
  have opened : open? spelledKeys.volume "keys" = .ok ⟨"keys"⟩ := by decide
  have noFault : ∀ cause, ((KeyDirectory.mk "keys").rotate.run spelledKeys).1 ≠
      .error (.file cause) := by
    intro cause failed
    have rotation := rotation_rotate (open?_eq_ok opened).2.2 (by decide)
    rw [failed] at rotation
    exact absurd rotation.current_of_fault (by decide)
  refine ⟨opened, noFault, (rotate_newer_iff opened noFault).1.mpr fun id held => ?_⟩
  have unused : ∀ id ∈ ["v007", "v+5", "old"], version? id ≠ some (2 ^ 64 - 1) := by decide
  exact unused id (Volume.mem_ids.mpr held)

/-- A directory whose key has the last number of all. -/
def lastKey : KeyStore := keysNamed ["v18446744073709551615"]

/-- The key of number zero comes after the last one. -/
theorem rotate_back_to_zero :
    ((KeyDirectory.mk "keys").rotate.run lastKey).1 = .ok "v0" ∧
      ¬ ∃ n s', (KeyDirectory.mk "keys").rotate.run lastKey = (.ok (versionId n), s') ∧
        Rotated "keys" lastKey n s' ∧
        ∀ id, lastKey.volume.Holds (Path.ofText "keys") (keyName id) →
          ∀ m, version? id = some m → m < n := by
  have opened : open? lastKey.volume "keys" = .ok ⟨"keys"⟩ := by decide
  have rotation := rotation_rotate (open?_eq_ok opened).2.2 (by decide)
  have held : lastKey.volume.Holds (Path.ofText "keys") (keyName "v18446744073709551615") := nofun
  have last : version? "v18446744073709551615" = some (word64 - 1) := by decide
  rw [nextVersion_eq_zero (Volume.mem_ids.mpr held) last] at rotation
  rcases ran : (KeyDirectory.mk "keys").rotate.run lastKey with ⟨outcome, s'⟩
  rw [ran] at rotation
  constructor
  · cases rotation with
    | taken held => exact absurd held (by decide)
    | blocked directory => exact absurd directory (by decide)
    | rotated rotated => exact congrArg Except.ok (by decide)
  · rintro ⟨n, after, same, -, above⟩
    cases same
    have below := above _ held _ last
    rw [rotation.number_eq] at below
    exact absurd below (Nat.not_lt_zero _)

end Sample

end SealedColumns
