import SealedColumns.Proofs.Vault.Names
import SealedColumns.Proofs.Vault.Sealing

/-!
What a key directory holds. After it is made and after each rotation there are the pepper, the keys
`v1`, `v2`, … and the name of the last of them; no file but the last one is ever written again.
-/
namespace SealedColumns

open Text

namespace Keep

variable {α β : Type}

/-- A run that succeeds, with its result and the store that it leaves. -/
def Gives (m : Keep α) (s : KeyStore) (a : α) (s' : KeyStore) : Prop := m.run s = (.ok a, s')

@[simp] theorem gives_pure (a b : α) (s s' : KeyStore) :
    Gives (pure a) s b s' ↔ a = b ∧ s = s' := by
  constructor
  · intro h
    cases h
    exact ⟨rfl, rfl⟩
  · rintro ⟨rfl, rfl⟩
    rfl

@[simp] theorem gives_bind (m : Keep α) (f : α → Keep β) (s s'' : KeyStore) (b : β) :
    Gives (m >>= f) s b s'' ↔ ∃ a s', Gives m s a s' ∧ Gives (f a) s' b s'' := by
  have unfolded : (m >>= f).run s = ExceptT.bindCont f (m.run s).1 (m.run s).2 := rfl
  constructor
  · intro h
    rw [Gives, unfolded] at h
    rcases first : m.run s with ⟨e | a, s'⟩
    · rw [first] at h
      cases h
    · rw [first] at h
      exact ⟨a, s', first, h⟩
  · rintro ⟨a, s', first, second⟩
    rw [Gives] at first
    rw [Gives, unfolded, first]
    exact second

@[simp] theorem gives_throw (e : KeyError) (s s' : KeyStore) (a : α) :
    ¬ Gives (throw e) s a s' := by
  intro h
  cases h

@[simp] theorem gives_unless {c : Prop} [Decidable c] (e : KeyError) (f : α → Keep β) (m : Keep β)
    (s s' : KeyStore) (b : β) :
    Gives (if c then throw e >>= f else m) s b s' ↔ ¬ c ∧ Gives m s b s' := by
  by_cases holds : c <;> simp [holds]

@[simp] theorem gives_volume (v : Volume) (s s' : KeyStore) :
    Gives Keep.volume s v s' ↔ s.volume = v ∧ s = s' := by
  constructor
  · intro h
    cases h
    exact ⟨rfl, rfl⟩
  · rintro ⟨rfl, rfl⟩
    rfl

@[simp] theorem gives_setVolume (result : Except FileError Volume) (s s' : KeyStore) (u : Unit) :
    Gives (setVolume result) s u s' ↔ ∃ v, result = .ok v ∧ { s with volume := v } = s' := by
  cases result with
  | error cause =>
    constructor
    · intro h
      cases h
    · rintro ⟨v, same, -⟩
      contradiction
  | ok v =>
    constructor
    · intro h
      cases h
      exact ⟨v, rfl, rfl⟩
    · rintro ⟨_, same, rfl⟩
      cases same
      rfl

@[simp] theorem gives_drawKey (bytes : Bytes) (s s' : KeyStore) :
    Gives drawKey s bytes s' ↔
      (s.supply.draw keySize).1 = bytes ∧ { s with supply := (s.supply.draw keySize).2 } = s' := by
  constructor
  · intro h
    cases h
    exact ⟨rfl, rfl⟩
  · rintro ⟨rfl, rfl⟩
    rfl

@[simp] theorem gives_ofExcept (result : Except KeyError α) (a : α) (s s' : KeyStore) :
    Gives (MonadExcept.ofExcept result) s a s' ↔ result = .ok a ∧ s = s' := by
  cases result with
  | error e =>
    constructor
    · intro h
      cases h
    · rintro ⟨same, -⟩
      contradiction
  | ok b =>
    constructor
    · intro h
      cases h
      exact ⟨rfl, rfl⟩
    · rintro ⟨same, rfl⟩
      cases same
      rfl

/-- A run that fails, with its error and the store that it leaves. -/
def Raises (m : Keep α) (s : KeyStore) (e : KeyError) (s' : KeyStore) : Prop :=
  m.run s = (.error e, s')

variable {s s' : KeyStore} {e : KeyError}

@[simp] theorem raises_pure (a : α) : ¬ Raises (pure a) s e s' := by
  intro h
  cases h

@[simp] theorem raises_bind (m : Keep α) (f : α → Keep β) :
    Raises (m >>= f) s e s' ↔
      Raises m s e s' ∨ ∃ a between, Gives m s a between ∧ Raises (f a) between e s' := by
  have unfolded : (m >>= f).run s = ExceptT.bindCont f (m.run s).1 (m.run s).2 := rfl
  constructor
  · intro h
    rw [Raises, unfolded] at h
    rcases first : m.run s with ⟨cause | a, between⟩
    · rw [first] at h
      cases h
      exact .inl first
    · rw [first] at h
      exact .inr ⟨a, between, first, h⟩
  · rintro (first | ⟨a, between, first, second⟩)
    · rw [Raises] at first
      rw [Raises, unfolded, first]
      rfl
    · rw [Gives] at first
      rw [Raises, unfolded, first]
      exact second

@[simp] theorem raises_throw (cause : KeyError) :
    Raises (throw cause : Keep α) s e s' ↔ cause = e ∧ s = s' := by
  constructor
  · intro h
    cases h
    exact ⟨rfl, rfl⟩
  · rintro ⟨rfl, rfl⟩
    rfl

@[simp] theorem raises_unless {c : Prop} [Decidable c] (cause : KeyError) (f : α → Keep β)
    (m : Keep β) :
    Raises (if c then throw cause >>= f else m) s e s' ↔
      c ∧ cause = e ∧ s = s' ∨ ¬ c ∧ Raises m s e s' := by
  by_cases holds : c <;> simp [holds]

@[simp] theorem raises_volume : ¬ Raises Keep.volume s e s' := by
  intro h
  cases h

@[simp] theorem raises_setVolume (result : Except FileError Volume) :
    Raises (setVolume result) s e s' ↔
      ∃ cause, result = .error cause ∧ .file cause = e ∧ s = s' := by
  cases result with
  | error cause =>
    constructor
    · intro h
      cases h
      exact ⟨cause, rfl, rfl, rfl⟩
    · rintro ⟨_, same, rfl, rfl⟩
      cases same
      rfl
  | ok v =>
    constructor
    · intro h
      cases h
    · rintro ⟨_, same, -⟩
      contradiction

@[simp] theorem raises_drawKey : ¬ Raises drawKey s e s' := by
  intro h
  cases h

@[simp] theorem raises_ofExcept (result : Except KeyError α) :
    Raises (MonadExcept.ofExcept result) s e s' ↔ result = .error e ∧ s = s' := by
  cases result with
  | error cause =>
    constructor
    · intro h
      cases h
      exact ⟨rfl, rfl⟩
    · rintro ⟨same, rfl⟩
      cases same
      rfl
  | ok a =>
    constructor
    · intro h
      cases h
    · rintro ⟨same, -⟩
      contradiction

end Keep

theorem Supply.draw_length (s : Supply) (count : Nat) : (s.draw count).1.length = count := by
  simp [Supply.draw]

namespace KeyDirectory

variable {d : KeyDirectory} {home : Path} {s s' : KeyStore} {id : String}

theorem place_eq (located : Path.ofText d.path = home) {name : String} (isName : Path.IsName name) :
    d.place name = home ++ [name] := by
  rw [place, filePath, Path.ofText_join d.path isName, located]

end KeyDirectory

open KeyDirectory

/-- The store in which the first key is made. -/
def KeyStore.peppered (s : KeyStore) (home : Path) (ground : Volume) : KeyStore :=
  ⟨ground.put (home ++ [pepperName]) (.file (s.supply.draw keySize).1), (s.supply.draw keySize).2⟩

/-- A directory with a pepper and the keys with the first numbers. -/
structure Stocked (home : Path) (volume : Volume) (pepper : Bytes) (keys : List Bytes) : Prop where
  reached : volume.Reached home
  ids : ((volume.names home).filterMap keyId?).Perm (versions keys.length)
  pepperFile : volume.find? (home ++ [pepperName]) = some (.file pepper)
  pepperSize : pepper.length = keySize
  keyFile : ∀ i key, keys[i]? = some key →
    volume.find? (home ++ [keyName (versionId (i + 1))]) = some (.file key)
  keySizes : ∀ key ∈ keys, key.length = keySize

/-- The last key is the current one. -/
structure KeyFolder (home : Path) (volume : Volume) (pepper : Bytes) (keys : List Bytes) : Prop
    extends Stocked home volume pepper keys where
  someKey : keys ≠ []
  currentFile : volume.find? (home ++ [currentName]) =
    some (.file (encodeUtf8 (versionId keys.length)))

/-- All that was there is there as it was, but for the name of the current key. -/
def Volume.KeptBut (path : Path) (before after : Volume) : Prop :=
  ∀ place entry, place ≠ path → before.find? place = some entry → after.find? place = some entry

theorem Volume.KeptBut.refl {path : Path} (v : Volume) : v.KeptBut path v :=
  fun _ _ _ there => there

theorem Volume.KeptBut.trans {path : Path} {u v w : Volume} (first : u.KeptBut path v)
    (second : v.KeptBut path w) : u.KeptBut path w :=
  fun place entry other there => second place entry other (first place entry other there)

namespace Volume

variable {home : Path} {volume : Volume} {name other : String} {entry : Entry}

theorem concat_ne (differs : name ≠ other) : home ++ [name] ≠ home ++ [other] := by
  intro same
  exact differs (List.cons.inj (List.append_cancel_left same)).1

theorem find?_concat_put (differs : name ≠ other) :
    (volume.put (home ++ [other]) entry).find? (home ++ [name]) =
      volume.find? (home ++ [name]) := by
  rw [find?_put (by simp), if_neg (concat_ne differs)]

theorem find?_concat_put_self :
    (volume.put (home ++ [name]) entry).find? (home ++ [name]) = some entry := by
  rw [find?_put (by simp), if_pos rfl]

theorem names_concat_put (free : volume.find? (home ++ [name]) = none) :
    (volume.put (home ++ [name]) entry).names home = volume.names home ++ [name] := by
  rw [names_put_new (by simp) free, if_pos List.dropLast_concat, List.getLast?_concat]
  rfl

/-- Whether or not there was a current key before, its file is none of the keys. -/
theorem filterMap_names_put_current :
    ((volume.put (home ++ [currentName]) entry).names home).filterMap keyId? =
      (volume.names home).filterMap keyId? := by
  cases there : volume.find? (home ++ [currentName]) with
  | none =>
    rw [names_concat_put there, List.filterMap_append]
    simp [keyId?_currentName]
  | some old => rw [names_put_old (by simp) there]

/-- A key and its id in the places that a key directory has for them. -/
def withKey (v : Volume) (home : Path) (id : String) (key : Bytes) : Volume :=
  (v.put (home ++ [keyName id]) (.file key)).put (home ++ [currentName]) (.file (encodeUtf8 id))

theorem find?_withKey (v : Volume) (home : Path) (id : String) (key : Bytes) (place : Path) :
    (v.withKey home id key).find? place =
      if place = home ++ [currentName] then some (.file (encodeUtf8 id))
      else if place = home ++ [keyName id] then some (.file key)
      else v.find? place := by
  rw [withKey, find?_put (by simp), find?_put (by simp)]

theorem keptBut_withKey {id : String} (free : volume.find? (home ++ [keyName id]) = none)
    (key : Bytes) :
    volume.KeptBut (home ++ [currentName]) (volume.withKey home id key) := by
  intro place entry other there
  have new : place ≠ home ++ [keyName id] := by
    rintro rfl
    rw [free] at there
    contradiction
  rw [find?_withKey, if_neg other, if_neg new]
  exact there

end Volume

namespace Stocked

variable {home : Path} {volume : Volume} {pepper : Bytes} {keys : List Bytes}

/-- Names tell which keys are there, so the next number is free. -/
theorem free (stocked : Stocked home volume pepper keys) :
    volume.find? (home ++ [keyName (versionId (keys.length + 1))]) = none := by
  cases there : volume.find? (home ++ [keyName (versionId (keys.length + 1))]) with
  | none => rfl
  | some entry =>
    have name : keyName (versionId (keys.length + 1)) ∈ volume.names home :=
      Volume.mem_names.mpr (by rw [Volume.Holds, there]; simp)
    have id : versionId (keys.length + 1) ∈ (volume.names home).filterMap keyId? :=
      List.mem_filterMap.mpr ⟨_, name, keyId?_keyName _⟩
    obtain ⟨n, -, bound, same⟩ := mem_versions.mp (stocked.ids.mem_iff.mp id)
    have number := versionId_injective same
    omega

theorem install {key : Bytes} (stocked : Stocked home volume pepper keys)
    (size : key.length = keySize) :
    KeyFolder home (volume.withKey home (versionId (keys.length + 1)) key) pepper
      (keys ++ [key]) := by
  have free := stocked.free
  have count : (keys ++ [key]).length = keys.length + 1 := List.length_append
  have currentNoKey : ∀ id, keyName id ≠ currentName := fun id => keyName_ne keyId?_currentName
  have pepperNoKey : ∀ id, pepperName ≠ keyName id := fun id => (keyName_ne keyId?_pepperName).symm
  unfold Volume.withKey
  constructor
  · constructor
    · exact stocked.reached.put.put
    · rw [Volume.filterMap_names_put_current, Volume.names_concat_put free, List.filterMap_append,
        count, versions_succ]
      refine stocked.ids.append (List.Perm.of_eq ?_)
      simp [keyId?_keyName]
    · rw [Volume.find?_concat_put (by decide), Volume.find?_concat_put (pepperNoKey _)]
      exact stocked.pepperFile
    · exact stocked.pepperSize
    · intro i other there
      rw [Volume.find?_concat_put (currentNoKey _)]
      by_cases last : i = keys.length
      · subst last
        rw [List.getElem?_concat_length] at there
        rw [Volume.find?_concat_put_self, Option.some.inj there]
      · have inside : i < keys.length := by
          have bound := (List.getElem?_eq_some_iff.mp there).1
          omega
        have differs : keyName (versionId (i + 1)) ≠ keyName (versionId (keys.length + 1)) := by
          intro same
          have numbers := versionId_injective (keyName_injective same)
          omega
        rw [List.getElem?_append_left inside] at there
        rw [Volume.find?_concat_put differs]
        exact stocked.keyFile i other there
    · intro other member
      obtain old | new := List.mem_append.mp member
      · exact stocked.keySizes other old
      · rw [List.mem_singleton.mp new]
        exact size
  · simp
  · rw [Volume.find?_concat_put_self, count]

end Stocked

namespace KeyDirectory

variable {home : Path} {volume : Volume} {d : KeyDirectory} {s s' : KeyStore}

theorem currentId_of_file {n : Nat} (reached : volume.Reached home)
    (located : Path.ofText d.path = home)
    (there : volume.find? (home ++ [currentName]) = some (.file (encodeUtf8 (versionId n)))) :
    d.currentId volume = .ok (versionId n) := by
  have place := place_eq located isName_currentName
  have read := Volume.read_file reached there
  have text : volume.readText (home ++ [currentName]) = .ok (versionId n) := by
    unfold Volume.readText
    simp only [read, bind, Except.bind, decodeUtf8_encodeUtf8]
    rfl
  unfold currentId
  simp only [place, text, isBlankText_versionId, trim_versionId, Bool.false_eq_true, if_false]

theorem readSecret_eq {name : String} {content : Bytes} (reached : volume.Reached home)
    (located : Path.ofText d.path = home) (isName : Path.IsName name)
    (there : volume.find? (home ++ [name]) = some (.file content))
    (size : content.length = keySize) : d.readSecret volume name = .ok content := by
  have place := place_eq located isName
  have read := Volume.read_file reached there
  unfold readSecret
  simp only [place, read, size, if_true]

theorem key_of_file {id : String} {key : Bytes} (reached : volume.Reached home)
    (located : Path.ofText d.path = home) (valid : isKeyId id = true)
    (there : volume.find? (home ++ [keyName id]) = some (.file key))
    (size : key.length = keySize) : d.key volume id = .ok key := by
  have secret := readSecret_eq reached located (isName_keyName valid) there size
  unfold KeyDirectory.key
  simp only [keyFile_eq valid, bind, Except.bind, secret]

/-- An id that is taken changes nothing, and a directory in the place of the current file stops
the installation when the key is there already. -/
theorem run_installKey {id : String} (located : Path.ofText d.path = home)
    (valid : isKeyId id = true) (reached : s.volume.Reached home) :
    (d.installKey id).run s =
      if s.volume.find? (home ++ [keyName id]) ≠ none then (.error (.creation (.keyExists id)), s)
      else if s.volume.find? (home ++ [currentName]) = some .directory then
        (.error (.file .isDirectory),
          ⟨s.volume.put (home ++ [keyName id]) (.file (s.supply.draw keySize).1),
            (s.supply.draw keySize).2⟩)
      else (.ok (),
        ⟨s.volume.withKey home id (s.supply.draw keySize).1, (s.supply.draw keySize).2⟩) := by
  have keyPlace := place_eq located (isName_keyName valid)
  have currentPlace := place_eq located isName_currentName
  have held : s.volume.has (home ++ [keyName id]) =
      (s.volume.find? (home ++ [keyName id])).isSome := Volume.has_file reached
  by_cases free : s.volume.find? (home ++ [keyName id]) = none
  · rw [free] at held
    rw [if_neg (not_not_intro free)]
    have created := Volume.create_file reached free (s.supply.draw keySize).1
    have still : (s.volume.put (home ++ [keyName id]) (.file (s.supply.draw keySize).1)).find?
        (home ++ [currentName]) = s.volume.find? (home ++ [currentName]) :=
      Volume.find?_concat_put (keyName_ne keyId?_currentName).symm
    by_cases directory : s.volume.find? (home ++ [currentName]) = some .directory
    · have blocked := Volume.write_directory reached.put (still.trans directory) (encodeUtf8 id)
      rw [if_pos directory]
      change Keep.Raises _ _ _ _
      simp [installKey, keyFile_eq valid, keyPlace, held, writeSecret, currentPlace, created,
        blocked]
    · have written := Volume.write_file reached.put (still ▸ directory) (encodeUtf8 id)
      rw [if_neg directory]
      change Keep.Gives _ _ _ _
      simp [installKey, keyFile_eq valid, keyPlace, held, writeSecret, currentPlace, created,
        written, Volume.withKey]
  · obtain ⟨entry, there⟩ := Option.ne_none_iff_exists'.mp free
    rw [there] at held
    rw [if_pos free]
    change Keep.Raises _ _ _ _
    simp [installKey, keyFile_eq valid, keyPlace, held]

/-- A key is installed where its id is free and nothing but a file names the current key. -/
theorem gives_installKey {id : String} (located : Path.ofText d.path = home)
    (valid : isKeyId id = true) (reached : s.volume.Reached home) :
    Keep.Gives (d.installKey id) s () s' ↔ s.volume.find? (home ++ [keyName id]) = none ∧
      s.volume.find? (home ++ [currentName]) ≠ some .directory ∧
      ⟨s.volume.withKey home id (s.supply.draw keySize).1, (s.supply.draw keySize).2⟩ = s' := by
  rw [Keep.Gives, run_installKey located valid reached]
  by_cases free : s.volume.find? (home ++ [keyName id]) = none
  · rw [if_neg (not_not_intro free)]
    by_cases directory : s.volume.find? (home ++ [currentName]) = some .directory
    · rw [if_pos directory]
      exact ⟨nofun, fun ⟨_, file, _⟩ => absurd directory file⟩
    · rw [if_neg directory]
      constructor
      · intro h
        cases h
        exact ⟨free, directory, rfl⟩
      · rintro ⟨-, -, rfl⟩
        rfl
  · rw [if_pos free]
    exact ⟨nofun, fun ⟨nothing, _⟩ => absurd nothing free⟩

section Make

variable {path : String} {e : KeyError}

theorem place_currentName (path : String) :
    (KeyDirectory.mk path).place currentName = Path.ofText path ++ [currentName] :=
  place_eq rfl isName_currentName

theorem place_pepperName (path : String) :
    (KeyDirectory.mk path).place pepperName = Path.ofText path ++ [pepperName] :=
  place_eq rfl isName_pepperName

theorem raises_make_unreached {cause : FileError}
    (unmade : s.volume.makeDirectories (Path.ofText path) = .error cause) :
    Keep.Raises (KeyDirectory.make path) s (.file cause) s := by
  simp [KeyDirectory.make, unmade]

section Ground

variable {ground : Volume} (made : s.volume.makeDirectories (Path.ofText path) = .ok ground)
include made

theorem raises_make_known (held : s.volume.Holds (Path.ofText path) currentName ∨
    s.volume.Holds (Path.ofText path) pepperName) :
    Keep.Raises (KeyDirectory.make path) s (.creation (.alreadyInitialized path))
      { s with volume := ground } := by
  have reached := Volume.reached_makeDirectories made
  rw [Volume.Holds, Volume.Holds, Option.ne_none_iff_isSome, Option.ne_none_iff_isSome] at held
  simp [KeyDirectory.make, made, place_currentName, place_pepperName, Volume.has_file reached,
    Volume.find?_makeDirectories made, held]

variable (noPepper : ¬ s.volume.Holds (Path.ofText path) pepperName)
include noPepper

theorem create_pepper (pepper : Bytes) : ground.create (Path.ofText path ++ [pepperName]) pepper =
    .ok (ground.put (Path.ofText path ++ [pepperName]) (.file pepper)) :=
  Volume.create_file (Volume.reached_makeDirectories made)
    ((Volume.find?_makeDirectories made pepperName).trans (not_not.mp noPepper)) pepper

variable (noCurrent : ¬ s.volume.Holds (Path.ofText path) currentName)
include noCurrent

/-- Where neither is, the pepper is written and all else is up to the first key. -/
theorem gives_make : Keep.Gives (KeyDirectory.make path) s d s' ↔
    Keep.Gives ((KeyDirectory.mk path).installKey "v1") (s.peppered (Path.ofText path) ground) ()
      s' ∧ ⟨path⟩ = d := by
  have reached := Volume.reached_makeDirectories made
  simp [-bind_pure_comp, KeyDirectory.make, made, place_currentName, place_pepperName,
    Volume.has_file reached, Volume.find?_makeDirectories made, not_not.mp noCurrent,
    not_not.mp noPepper, writeSecret, create_pepper made noPepper, KeyStore.peppered, and_comm,
    Unique.exists_iff]

theorem raises_make : Keep.Raises (KeyDirectory.make path) s e s' ↔
    Keep.Raises ((KeyDirectory.mk path).installKey "v1") (s.peppered (Path.ofText path) ground) e
      s' := by
  have reached := Volume.reached_makeDirectories made
  simp [-bind_pure_comp, KeyDirectory.make, made, place_currentName, place_pepperName,
    Volume.has_file reached, Volume.find?_makeDirectories made, not_not.mp noCurrent,
    not_not.mp noPepper, writeSecret, create_pepper made noPepper, KeyStore.peppered]

end Ground

end Make

/-- The ids are those in the names of the entries, whatever these are. -/
theorem keyIds_of_reached (reached : volume.Reached home) (located : Path.ofText d.path = home)
    (named : d.path ≠ "") :
    d.keyIds volume = .ok (((volume.names home).filterMap keyId?).mergeSort precedes) := by
  have nonempty : d.path.isEmpty = false := by
    rw [← Bool.not_eq_true, String.isEmpty_iff]
    exact named
  have listed := Volume.list_directory reached
  unfold keyIds
  simp only [nonempty, located, listed, Bool.false_eq_true, if_false]

section Rotate

variable {id : String} {e : KeyError} {n : Nat} (reached : s.volume.Reached home)
  (located : Path.ofText d.path = home) (named : d.path ≠ "")
  (next : nextVersion ((s.volume.names home).filterMap keyId?) = n)
include reached located named next

theorem rotate_ids : ∃ ids, d.keyIds s.volume = .ok ids ∧ nextVersion ids = n :=
  ⟨_, keyIds_of_reached reached located named,
    (nextVersion_perm (List.mergeSort_perm _ precedes)).trans next⟩

/-- A rotation installs the key with the next number. -/
theorem gives_rotate :
    Keep.Gives d.rotate s id s' ↔ versionId n = id ∧ Keep.Gives (d.installKey id) s () s' := by
  obtain ⟨ids, found, next⟩ := rotate_ids reached located named next
  simp only [rotate, Keep.gives_bind, Keep.gives_volume, Keep.gives_ofExcept, Keep.gives_pure]
  constructor
  · rintro ⟨_, _, ⟨rfl, rfl⟩, _, _, ⟨same, rfl⟩, _, _, installed, rfl, rfl⟩
    rw [found] at same
    rw [← Except.ok.inj same, next] at installed ⊢
    exact ⟨rfl, installed⟩
  · rintro ⟨rfl, installed⟩
    refine ⟨_, _, ⟨rfl, rfl⟩, _, _, ⟨found, rfl⟩, (), _, ?_, ?_, rfl⟩
    · rw [next]
      exact installed
    · rw [next]
      rfl

theorem raises_rotate :
    Keep.Raises d.rotate s e s' ↔ Keep.Raises (d.installKey (versionId n)) s e s' := by
  obtain ⟨ids, found, next⟩ := rotate_ids reached located named next
  simp [-bind_pure_comp, rotate, found, next, versionId]

end Rotate

end KeyDirectory

namespace KeyFolder

variable {home : Path} {volume : Volume} {pepper : Bytes} {keys : List Bytes} {d : KeyDirectory}
  {s s' : KeyStore}

section Reads

variable (folder : KeyFolder home volume pepper keys) (located : Path.ofText d.path = home)
include folder located

theorem currentId_eq : d.currentId volume = .ok (versionId keys.length) :=
  currentId_of_file folder.reached located folder.currentFile

theorem pepper_eq : d.pepper volume = .ok (some pepper) := by
  have secret := readSecret_eq folder.reached located isName_pepperName folder.pepperFile
    folder.pepperSize
  unfold KeyDirectory.pepper
  simp only [secret]

theorem key_eq {i : Nat} {key : Bytes} (there : keys[i]? = some key) :
    d.key volume (versionId (i + 1)) = .ok key :=
  key_of_file folder.reached located (isKeyId_versionId (i + 1)) (folder.keyFile i key there)
    (folder.keySizes key (List.mem_of_getElem? there))

theorem keyIds_eq (named : d.path ≠ "") (few : keys.length < word64) :
    d.keyIds volume = .ok (versions keys.length) := by
  rw [keyIds_of_reached folder.reached located named, mergeSort_of_perm folder.ids few]

end Reads

/-- A rotation succeeds, adds one key and leaves all that was there but the current id. -/
theorem rotate (folder : KeyFolder home s.volume pepper keys) (located : Path.ofText d.path = home)
    (named : d.path ≠ "") (few : keys.length + 1 < word64) :
    ∃ s', Keep.Gives d.rotate s (versionId (keys.length + 1)) s' ∧
      KeyFolder home s'.volume pepper (keys ++ [(s.supply.draw keySize).1]) ∧
      s.volume.KeptBut (home ++ [currentName]) s'.volume := by
  have next := nextVersion_of_perm folder.ids few
  have free := folder.toStocked.free
  have size : (s.supply.draw keySize).1.length = keySize := s.supply.draw_length keySize
  have noDirectory : s.volume.find? (home ++ [currentName]) ≠ some .directory := by
    rw [folder.currentFile]
    simp
  have installed := (gives_installKey located (isKeyId_versionId (keys.length + 1))
    folder.reached).mpr ⟨free, noDirectory, rfl⟩
  exact ⟨_, (gives_rotate folder.reached located named next).mpr ⟨rfl, installed⟩,
    folder.toStocked.install size, Volume.keptBut_withKey free _⟩

/-- What is made where nothing was holds a pepper and one key. -/
theorem of_make {path : String} (empty : s.volume.names (Path.ofText path) = [])
    (made : Keep.Gives (KeyDirectory.make path) s d s') :
    d = ⟨path⟩ ∧ ∃ pepper key, KeyFolder (Path.ofText path) s'.volume pepper [key] := by
  have nothing : ∀ name, ¬ s.volume.Holds (Path.ofText path) name := by
    intro name held
    rw [← Volume.mem_names, empty] at held
    exact absurd held List.not_mem_nil
  rcases grounded : s.volume.makeDirectories (Path.ofText path) with cause | ground
  · exact absurd ((raises_make_unreached grounded).symm.trans made) nofun
  obtain ⟨installed, rfl⟩ := (gives_make grounded (nothing _) (nothing _)).mp made
  have free := Volume.find?_makeDirectories grounded pepperName
  have bare : ground.names (Path.ofText path) = [] := by
    refine List.eq_nil_iff_forall_not_mem.mpr fun name member => nothing name ?_
    rw [Volume.Holds, ← Volume.find?_makeDirectories grounded]
    exact Volume.mem_names.mp member
  have stocked : Stocked (Path.ofText path) (s.peppered (Path.ofText path) ground).volume
      (s.supply.draw keySize).1 [] := by
    constructor
    · exact (Volume.reached_makeDirectories grounded).put
    · rw [KeyStore.peppered, Volume.names_concat_put (free.trans (not_not.mp (nothing _))), bare]
      simp [keyId?_pepperName, versions]
    · exact Volume.find?_concat_put_self
    · exact s.supply.draw_length keySize
    · intro i key there
      rw [List.getElem?_nil] at there
      contradiction
    · intro key member
      exact absurd member List.not_mem_nil
  have first : "v1" = versionId ([] : List Bytes).length.succ := by decide
  rw [first] at installed
  obtain ⟨-, -, after⟩ := (gives_installKey rfl (isKeyId_versionId _) stocked.reached).mp installed
  rw [← after]
  exact ⟨rfl, _, _, stocked.install (Supply.draw_length _ _)⟩

end KeyFolder

end SealedColumns
