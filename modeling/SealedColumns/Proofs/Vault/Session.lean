import Mathlib.Algebra.Group.Nat.Defs
import SealedColumns.Proofs.Vault.Folder

/-!
Vaults over one key directory, opened, used and kept open while its keys rotate. Whatever was sealed
is opened again, by every vault and for ever, and a text has one index.
-/
namespace SealedColumns

open Text KeyDirectory

/-- A vault that is open. The index key is taken when it is opened; all other keys are read from the
directory for each question. -/
structure OpenVault where
  directory : KeyDirectory
  indexKey : Bytes

def OpenVault.at (o : OpenVault) (volume : Volume) : Vault :=
  ⟨o.directory.provider volume, o.indexKey⟩

@[simp] theorem OpenVault.at_key (o : OpenVault) (volume : Volume) (id : String) :
    (o.at volume).provider.key id = o.directory.key volume id := by
  simp only [OpenVault.at, KeyDirectory.provider]

@[simp] theorem OpenVault.at_currentId (o : OpenVault) (volume : Volume) :
    (o.at volume).provider.currentId = o.directory.currentId volume := by
  simp only [OpenVault.at, KeyDirectory.provider]

@[simp] theorem OpenVault.at_index (o : OpenVault) (volume : Volume) (plain : String) :
    (o.at volume).index plain = blindIndexText o.indexKey plain := by
  simp only [OpenVault.at, Vault.index]

/-- What can be asked of a key directory and of the vaults that were opened so far. -/
inductive VaultCall where
  | rotate (path : String)
  | openVault (path : String)
  | encrypt (vault : Nat) (plain : String)
  | index (vault : Nat) (plain : String)
deriving Repr

/-- The files, the open vaults, and each text that was sealed or indexed with what came of it. -/
structure VaultSession where
  store : KeyStore
  vaults : List OpenVault
  encrypted : List (String × String)
  indexed : List (String × String)

namespace VaultSession

def start (store : KeyStore) : VaultSession := ⟨store, [], [], []⟩

/-- A number that no open vault has asks nothing. -/
def act (s : VaultSession) : VaultCall → Except HandlerError VaultSession
  | .rotate path =>
    match (KeyDirectory.rotate ⟨path⟩).run s.store with
    | (.ok _, store) => .ok { s with store := store }
    | (.error cause, _) => .error (.key cause)
  | .openVault path => do
    let d ← Vault.ofKey (open? s.store.volume path)
    let v ← Vault.ofProvider (d.provider s.store.volume)
    return { s with vaults := s.vaults ++ [⟨d, v.indexKey⟩] }
  | .encrypt number plain =>
    match s.vaults[number]? with
    | none => .ok s
    | some o =>
      match (o.at s.store.volume).encrypt plain s.store.supply with
      | (.ok text, supply) =>
        .ok { s with
          store := { s.store with supply := supply }
          encrypted := s.encrypted ++ [(plain, text)] }
      | (.error e, _) => .error e
  | .index number plain =>
    match s.vaults[number]? with
    | none => .ok s
    | some o =>
      .ok { s with indexed := s.indexed ++ [(plain, (o.at s.store.volume).index plain)] }

def run (s : VaultSession) (calls : List VaultCall) : Except HandlerError VaultSession :=
  calls.foldlM act s

end VaultSession

namespace VaultCall

/-- A text may name the directory in several ways; an empty one cannot be listed. -/
def Stays (home : Path) : VaultCall → Prop
  | .rotate path | .openVault path => path ≠ "" ∧ Path.ofText path = home
  | .encrypt _ _ | .index _ _ => True

def isRotation : VaultCall → Bool
  | .rotate _ => true
  | _ => false

def rotations (calls : List VaultCall) : Nat := calls.countP isRotation

end VaultCall

def vaultIndexKey (pepper : Bytes) : Bytes := deriveKey pepper Vault.indexKeyId .index

/-- The text was sealed under one of the keys. -/
def SealedUnder (keys : List Bytes) (plain text : String) : Prop :=
  ∃ i key nonce, keys[i]? = some key ∧ nonce.length = Aead.nonceSize ∧
    text = Vault.sealText (deriveKey key (versionId (i + 1)) .data) (versionId (i + 1)) nonce plain

theorem SealedUnder.append {keys : List Bytes} {plain text : String}
    (under : SealedUnder keys plain text) (more : List Bytes) :
    SealedUnder (keys ++ more) plain text := by
  obtain ⟨i, key, nonce, there, twelve, shape⟩ := under
  have inside := (List.getElem?_eq_some_iff.mp there).1
  refine ⟨i, key, nonce, ?_, twelve, shape⟩
  rw [List.getElem?_append_left inside]
  exact there

/-- What holds of every session over a directory with this pepper and these keys. -/
structure VaultSession.Sound (home : Path) (pepper : Bytes) (keys : List Bytes) (s : VaultSession) :
    Prop where
  folder : KeyFolder home s.store.volume pepper keys
  vaults : ∀ o ∈ s.vaults, Path.ofText o.directory.path = home ∧ o.indexKey = vaultIndexKey pepper
  encrypted : ∀ record ∈ s.encrypted, SealedUnder keys record.1 record.2
  indexed : ∀ record ∈ s.indexed, record.2 = blindIndexText (vaultIndexKey pepper) record.1

namespace OpenVault

variable {home : Path} {pepper : Bytes} {keys : List Bytes} {volume : Volume} {o : OpenVault}
  (folder : KeyFolder home volume pepper keys) (located : Path.ofText o.directory.path = home)
include folder located

theorem dataKey_eq {i : Nat} {key : Bytes} (there : keys[i]? = some key) :
    (o.at volume).dataKey (versionId (i + 1)) =
      .ok (deriveKey key (versionId (i + 1)) .data) := by
  unfold Vault.dataKey
  rw [at_key, folder.key_eq located there]
  rfl

theorem decrypt_eq {plain text : String} (under : SealedUnder keys plain text) :
    (o.at volume).decrypt text = .ok plain := by
  obtain ⟨i, key, nonce, there, twelve, rfl⟩ := under
  exact Vault.decrypt_sealText (dataKey_eq folder located there) twelve

/-- New texts are sealed under the last key. -/
theorem encrypt_eq (plain : String) (supply : Supply) :
    ∃ text, (o.at volume).encrypt plain supply =
      (.ok text, (supply.draw Aead.nonceSize).2) ∧ SealedUnder keys plain text := by
  obtain ⟨i, last⟩ : ∃ i, keys.length = i + 1 :=
    Nat.exists_eq_succ_of_ne_zero fun none => folder.someKey (List.length_eq_zero_iff.mp none)
  have there : keys[i]? = some keys[i] := List.getElem?_eq_getElem _
  have current : o.directory.currentId volume = .ok (versionId (i + 1)) := by
    rw [← last]
    exact folder.currentId_eq located
  have noSeparator : (versionId (i + 1)).toList.contains Vault.separator = false := by
    rw [← Bool.not_eq_true, List.contains_iff_mem]
    exact separator_notMem_versionId (i + 1)
  have key : (o.at volume).currentKey =
      .ok (versionId (i + 1), deriveKey keys[i] (versionId (i + 1)) .data) := by
    unfold Vault.currentKey
    rw [at_currentId, current]
    simp only [Vault.ofKey, bind, Except.bind, noSeparator, dataKey_eq folder located there]
    rfl
  refine ⟨Vault.sealText (deriveKey keys[i] (versionId (i + 1)) .data) (versionId (i + 1))
    (supply.draw Aead.nonceSize).1 plain, ?_, i, keys[i], _, there, ?_, rfl⟩
  · unfold Vault.encrypt
    simp only [key]
  · simp [Supply.draw]

end OpenVault

namespace VaultSession.Sound

variable {home : Path} {pepper : Bytes} {keys : List Bytes} {s : VaultSession} {call : VaultCall}

theorem openVault_eq {path : String} (sound : s.Sound home pepper keys) (named : path ≠ "")
    (located : Path.ofText path = home) :
    s.act (.openVault path) =
      .ok { s with vaults := s.vaults ++ [⟨⟨path⟩, vaultIndexKey pepper⟩] } := by
  have nonempty : path.isEmpty = false := by
    rw [← Bool.not_eq_true, String.isEmpty_iff]
    exact named
  have directory := Volume.isDirectory_of_reached sound.folder.reached
  have opened : open? s.store.volume path = .ok ⟨path⟩ := by
    unfold open?
    rw [nonempty, located, directory]
    rfl
  have pepper : KeyDirectory.pepper ⟨path⟩ s.store.volume = .ok (some pepper) :=
    sound.folder.pepper_eq located
  unfold VaultSession.act
  simp only [opened, Vault.ofKey, bind, Except.bind, Vault.ofProvider, Vault.indexKey?,
    KeyDirectory.provider, pepper]
  rfl

theorem withVault {o : OpenVault} (sound : s.Sound home pepper keys)
    (located : Path.ofText o.directory.path = home) (key : o.indexKey = vaultIndexKey pepper) :
    { s with vaults := s.vaults ++ [o] }.Sound home pepper keys where
  folder := sound.folder
  vaults := List.forall_mem_append.mpr ⟨sound.vaults, List.forall_mem_singleton.mpr ⟨located, key⟩⟩
  encrypted := sound.encrypted
  indexed := sound.indexed

theorem withEncrypted {plain text : String} (sound : s.Sound home pepper keys) (supply : Supply)
    (under : SealedUnder keys plain text) :
    { s with
      store := { s.store with supply := supply }
      encrypted := s.encrypted ++ [(plain, text)] }.Sound home pepper keys where
  folder := sound.folder
  vaults := sound.vaults
  encrypted := List.forall_mem_append.mpr ⟨sound.encrypted, List.forall_mem_singleton.mpr under⟩
  indexed := sound.indexed

theorem withIndexed {plain text : String} (sound : s.Sound home pepper keys)
    (same : text = blindIndexText (vaultIndexKey pepper) plain) :
    { s with indexed := s.indexed ++ [(plain, text)] }.Sound home pepper keys where
  folder := sound.folder
  vaults := sound.vaults
  encrypted := sound.encrypted
  indexed := List.forall_mem_append.mpr ⟨sound.indexed, List.forall_mem_singleton.mpr same⟩

/-- All calls but a rotation leave the files as they are. -/
theorem act_still (sound : s.Sound home pepper keys) (stays : call.Stays home)
    (still : call.isRotation = false) :
    ∃ s', s.act call = .ok s' ∧ s'.Sound home pepper keys ∧ s'.store.volume = s.store.volume := by
  cases call with
  | rotate path => cases still
  | openVault path =>
    obtain ⟨named, located⟩ := stays
    exact ⟨_, sound.openVault_eq named located, sound.withVault located rfl, rfl⟩
  | encrypt number plain =>
    cases found : s.vaults[number]? with
    | none =>
      refine ⟨s, ?_, sound, rfl⟩
      simp only [VaultSession.act, found]
    | some o =>
      obtain ⟨located, -⟩ := sound.vaults o (List.mem_of_getElem? found)
      obtain ⟨text, answer, under⟩ := o.encrypt_eq sound.folder located plain s.store.supply
      refine ⟨_, ?_, sound.withEncrypted (s.store.supply.draw Aead.nonceSize).2 under, rfl⟩
      simp only [VaultSession.act, found, answer]
  | index number plain =>
    cases found : s.vaults[number]? with
    | none =>
      refine ⟨s, ?_, sound, rfl⟩
      simp only [VaultSession.act, found]
    | some o =>
      obtain ⟨-, key⟩ := sound.vaults o (List.mem_of_getElem? found)
      have same : (o.at s.store.volume).index plain =
          blindIndexText (vaultIndexKey pepper) plain := by
        rw [OpenVault.at_index, key]
      refine ⟨_, ?_, sound.withIndexed same, rfl⟩
      simp only [VaultSession.act, found]

/-- One call succeeds, adds a key when it is a rotation, and overwrites the current id at most. -/
theorem act (sound : s.Sound home pepper keys) (stays : call.Stays home)
    (few : keys.length + VaultCall.rotations [call] < word64) :
    ∃ s' more, s.act call = .ok s' ∧ s'.Sound home pepper (keys ++ more) ∧
      more.length = VaultCall.rotations [call] ∧
      s.store.volume.KeptBut (home ++ [currentName]) s'.store.volume := by
  cases still : call.isRotation with
  | false =>
    obtain ⟨s', done, sound', same⟩ := sound.act_still stays still
    refine ⟨s', [], done, ?_, ?_, ?_⟩
    · rw [List.append_nil]
      exact sound'
    · simp [VaultCall.rotations, still]
    · rw [same]
      exact .refl _
  | true =>
    cases call with
    | rotate path =>
      obtain ⟨named, located⟩ := stays
      obtain ⟨store, gives, folder, kept⟩ := sound.folder.rotate (d := ⟨path⟩) located named few
      have ran : (KeyDirectory.rotate ⟨path⟩).run s.store =
          (.ok (versionId (keys.length + 1)), store) := gives
      have done : s.act (.rotate path) = .ok { s with store := store } := by
        unfold VaultSession.act
        simp only [ran]
      refine ⟨_, _, done, ⟨folder, sound.vaults, ?_, sound.indexed⟩, rfl, kept⟩
      intro record member
      exact (sound.encrypted record member).append _
    | _ => cases still

theorem rotations_cons (call : VaultCall) (calls : List VaultCall) :
    VaultCall.rotations (call :: calls) =
      VaultCall.rotations [call] + VaultCall.rotations calls := by
  simp only [VaultCall.rotations, List.countP_cons, List.countP_nil]
  omega

theorem run {calls : List VaultCall} (sound : s.Sound home pepper keys)
    (stay : ∀ call ∈ calls, call.Stays home)
    (few : keys.length + VaultCall.rotations calls < word64) :
    ∃ s' more, s.run calls = .ok s' ∧ s'.Sound home pepper (keys ++ more) ∧
      more.length = VaultCall.rotations calls ∧
      s.store.volume.KeptBut (home ++ [currentName]) s'.store.volume := by
  induction calls generalizing s keys with
  | nil =>
    refine ⟨s, [], rfl, ?_, rfl, .refl _⟩
    rw [List.append_nil]
    exact sound
  | cons call calls ih =>
    rw [rotations_cons] at few
    obtain ⟨next, first, done, nextSound, count, kept⟩ :=
      sound.act (stay call List.mem_cons_self) (by omega)
    have left : (keys ++ first).length + VaultCall.rotations calls < word64 := by
      rw [List.length_append, count]
      omega
    obtain ⟨last, second, rest, lastSound, others, keptOn⟩ :=
      ih nextSound (fun other member => stay other (List.mem_cons_of_mem _ member)) left
    refine ⟨last, first ++ second, ?_, ?_, ?_, kept.trans keptOn⟩
    · unfold VaultSession.run
      rw [List.foldlM_cons, done]
      exact rest
    · rw [← List.append_assoc]
      exact lastSound
    · rw [List.length_append, count, others, ← rotations_cons]

end VaultSession.Sound

/-- For a directory that was made where there was none, or an empty one: no call fails, what was
sealed at any point is opened by every vault at every later point, a text has the same index for
all, the ids go up by one with each rotation and are listed in the order of their numbers, and no
file that was there is changed but the one that names the current key. -/
theorem sealed_survives_rotation {path : String} {before start : KeyStore} {d : KeyDirectory}
    (named : path ≠ "") (empty : before.volume.names (Path.ofText path) = [])
    (made : (KeyDirectory.make path).run before = (.ok d, start))
    (earlier later : List VaultCall)
    (stay : ∀ call ∈ earlier ++ later, call.Stays (Path.ofText path))
    (few : VaultCall.rotations (earlier ++ later) < 2 ^ 64 - 1) :
    ∃ middle last, (VaultSession.start start).run earlier = .ok middle ∧
      middle.run later = .ok last ∧
      (∀ record ∈ last.encrypted, ∀ o ∈ last.vaults,
        (o.at last.store.volume).decrypt record.2 = .ok record.1) ∧
      (∀ record ∈ last.indexed, ∀ o ∈ last.vaults,
        (o.at last.store.volume).index record.1 = record.2) ∧
      (∀ record ∈ last.indexed, ∀ other ∈ last.indexed, record.1 = other.1 → record.2 = other.2) ∧
      d.currentId last.store.volume =
        .ok (versionId (VaultCall.rotations (earlier ++ later) + 1)) ∧
      d.keyIds last.store.volume = .ok (versions (VaultCall.rotations (earlier ++ later) + 1)) ∧
      middle.store.volume.KeptBut (d.place currentName) last.store.volume := by
  obtain ⟨rfl, pepper, key, folder⟩ := KeyFolder.of_make empty made
  have located : Path.ofText (KeyDirectory.mk path).path = Path.ofText path := rfl
  have sound : (VaultSession.start start).Sound (Path.ofText path) pepper [key] := by
    constructor
    · exact folder
    · intro o member
      exact absurd member List.not_mem_nil
    · intro record member
      exact absurd member List.not_mem_nil
    · intro record member
      exact absurd member List.not_mem_nil
  have rotations : VaultCall.rotations (earlier ++ later) =
      VaultCall.rotations earlier + VaultCall.rotations later := List.countP_append
  have size : word64 = 2 ^ 64 := rfl
  rw [rotations] at few ⊢
  obtain ⟨middle, first, toMiddle, middleSound, count, -⟩ := sound.run
    (fun call member => stay call (List.mem_append_left _ member))
    (by rw [List.length_singleton]; omega)
  have length : ([key] ++ first).length = VaultCall.rotations earlier + 1 := by
    rw [List.length_append, count, List.length_singleton, Nat.add_comm]
  obtain ⟨last, second, toLast, lastSound, others, kept⟩ := middleSound.run
    (fun call member => stay call (List.mem_append_right _ member)) (by rw [length]; omega)
  have total : ([key] ++ first ++ second).length =
      VaultCall.rotations earlier + VaultCall.rotations later + 1 := by
    rw [List.length_append, length, others]
    omega
  have current := lastSound.folder.currentId_eq located
  have ids := lastSound.folder.keyIds_eq located named (by rw [total]; omega)
  rw [total] at current ids
  refine ⟨middle, last, toMiddle, toLast, ?_, ?_, ?_, current, ids, ?_⟩
  · intro record member o opened
    exact o.decrypt_eq lastSound.folder (lastSound.vaults o opened).1
      (lastSound.encrypted record member)
  · intro record member o opened
    rw [OpenVault.at_index, (lastSound.vaults o opened).2, lastSound.indexed record member]
  · intro record member other also same
    rw [lastSound.indexed record member, lastSound.indexed other also, same]
  · rw [place_eq located isName_currentName]
    exact kept

namespace Sample

def emptyStore : KeyStore := ⟨.empty, .ofStreams (fun n => UInt8.ofNat n) (fun _ => "name")⟩

def keyStore : KeyStore := ((KeyDirectory.make "keys").run emptyStore).2

/-- A vault is opened before the keys rotate, and another one afterwards. -/
def beforeRotation : List VaultCall := [.openVault "keys", .encrypt 0 "secret"]

def sinceRotation : List VaultCall :=
  [.rotate "keys", .openVault "./keys/", .encrypt 1 "other", .index 1 "secret"]

theorem make_keyStore :
    (KeyDirectory.make "keys").run emptyStore = (.ok ⟨"keys"⟩, keyStore) := by
  rfl

theorem sealed_survives_one_rotation :
    (∀ call ∈ beforeRotation ++ sinceRotation, call.Stays (Path.ofText "keys")) ∧
      ∃ middle last, (VaultSession.start keyStore).run beforeRotation = .ok middle ∧
        middle.run sinceRotation = .ok last ∧
        (∀ record ∈ last.encrypted, ∀ o ∈ last.vaults,
          (o.at last.store.volume).decrypt record.2 = .ok record.1) ∧
        (KeyDirectory.mk "keys").currentId last.store.volume = .ok "v2" ∧
        (KeyDirectory.mk "keys").keyIds last.store.volume = .ok ["v1", "v2"] := by
  have stay : ∀ call ∈ beforeRotation ++ sinceRotation, call.Stays (Path.ofText "keys") := by
    intro call member
    simp only [beforeRotation, sinceRotation, List.cons_append, List.nil_append, List.mem_cons,
      List.not_mem_nil, or_false] at member
    obtain rfl | rfl | rfl | rfl | rfl | rfl := member
    · exact ⟨by decide, by decide⟩
    · trivial
    · exact ⟨by decide, by decide⟩
    · exact ⟨by decide, by decide⟩
    · trivial
    · trivial
  obtain ⟨middle, last, toMiddle, toLast, opens, -, -, current, ids, -⟩ :=
    sealed_survives_rotation (by decide) (by decide) make_keyStore beforeRotation sinceRotation
      stay (by decide)
  exact ⟨stay, middle, last, toMiddle, toLast, opens, current, ids⟩

end Sample

end SealedColumns
