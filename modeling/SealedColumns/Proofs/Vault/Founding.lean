import SealedColumns.Proofs.Vault.Changes
import SealedColumns.Proofs.Vault.Session

/-!
Key directories that are made. Where a current id or a pepper is, nothing is made and no file
changes. Keys are not looked for, though: a directory that holds keys alone is taken over, and if
the first key is among them it is refused only after the pepper was written.
-/
namespace SealedColumns

open Text KeyDirectory

/-- The directory can be reached, and has neither a current id nor a pepper. -/
structure Volume.Vacant (v : Volume) (home : Path) : Prop where
  reachable : ∃ ground, v.makeDirectories home = .ok ground
  noCurrent : ¬ v.Holds home currentName
  noPepper : ¬ v.Holds home pepperName

/-- All that making a key directory can come to. -/
inductive Founding (path : String) (s : KeyStore) :
    Except KeyError KeyDirectory → KeyStore → Prop where
  | unreached {cause : FileError} :
      s.volume.makeDirectories (Path.ofText path) = .error cause →
        Founding path s (.error (.file cause)) s
  | known {s' : KeyStore} :
      s.volume.Holds (Path.ofText path) currentName ∨
        s.volume.Holds (Path.ofText path) pepperName →
          s.volume.Writes s'.volume [] →
            Founding path s (.error (.creation (.alreadyInitialized path))) s'
  | halted {pepper : Bytes} {s' : KeyStore} :
      s.volume.Vacant (Path.ofText path) →
        s.volume.Holds (Path.ofText path) (keyName "v1") → pepper.length = keySize →
          s.volume.Writes s'.volume [(Path.ofText path ++ [pepperName], pepper)] →
            Founding path s (.error (.creation (.keyExists "v1"))) s'
  | founded {pepper key : Bytes} {s' : KeyStore} :
      s.volume.Vacant (Path.ofText path) →
        ¬ s.volume.Holds (Path.ofText path) (keyName "v1") → pepper.length = keySize →
          key.length = keySize →
            s.volume.Writes s'.volume [(Path.ofText path ++ [currentName], encodeUtf8 "v1"),
              (Path.ofText path ++ [keyName "v1"], key),
              (Path.ofText path ++ [pepperName], pepper)] →
                Founding path s (.ok ⟨path⟩) s'

/-- A directory comes to be only where no key, no current id and no pepper was, and no file changes
when none comes to be, unless it is for the files themselves. -/
structure CleanFounding (path : String) (s : KeyStore) (result : Except KeyError KeyDirectory)
    (s' : KeyStore) : Prop where
  noKey : ∀ d, result = .ok d → ∀ id, s.volume.file? (Path.ofText path ++ [keyName id]) = none
  noCurrent : ∀ d, result = .ok d → s.volume.file? (Path.ofText path ++ [currentName]) = none
  noPepper : ∀ d, result = .ok d → s.volume.file? (Path.ofText path ++ [pepperName]) = none
  unchanged : ∀ e, result = .error e → (∀ cause, e ≠ .file cause) → s.volume.Writes s'.volume []

namespace KeyDirectory

variable {path : String} {s : KeyStore}

section Ground

variable {ground : Volume} (made : s.volume.makeDirectories (Path.ofText path) = .ok ground)
include made

theorem writes_peppered : s.volume.Writes (s.peppered (Path.ofText path) ground).volume
    [(Path.ofText path ++ [pepperName], (s.supply.draw keySize).1)] :=
  (Volume.writes_makeDirectories made).trans (Volume.writes_put (by simp) _)

theorem find?_peppered {name : String} (other : name ≠ pepperName) :
    (s.peppered (Path.ofText path) ground).volume.find? (Path.ofText path ++ [name]) =
      s.volume.find? (Path.ofText path ++ [name]) :=
  (Volume.find?_concat_put other).trans (Volume.find?_makeDirectories made name)

end Ground

theorem founding_make (path : String) (s : KeyStore) :
    Founding path s ((KeyDirectory.make path).run s).1 ((KeyDirectory.make path).run s).2 := by
  rcases made : s.volume.makeDirectories (Path.ofText path) with cause | ground
  · rw [raises_make_unreached made]
    exact .unreached made
  by_cases held : s.volume.Holds (Path.ofText path) currentName ∨
      s.volume.Holds (Path.ofText path) pepperName
  · rw [raises_make_known made held]
    exact .known held (Volume.writes_makeDirectories made)
  obtain ⟨noCurrent, noPepper⟩ := not_or.mp held
  have vacant : s.volume.Vacant (Path.ofText path) := ⟨⟨ground, made⟩, noCurrent, noPepper⟩
  have reached : (s.peppered (Path.ofText path) ground).volume.Reached (Path.ofText path) :=
    (Volume.reached_makeDirectories made).put
  have valid : isKeyId "v1" = true := by decide
  have installed := run_installKey (d := ⟨path⟩) rfl valid reached
  rw [find?_peppered made (keyName_ne keyId?_pepperName), find?_peppered made (by decide),
    not_not.mp noCurrent] at installed
  by_cases first : s.volume.find? (Path.ofText path ++ [keyName "v1"]) = none
  · rw [if_neg (not_not_intro first), if_neg nofun] at installed
    rw [(gives_make made noPepper noCurrent).mpr ⟨installed, rfl⟩]
    exact .founded vacant (not_not_intro first) (s.supply.draw_length _)
      (Supply.draw_length _ _) ((writes_peppered made).trans (Volume.writes_withKey _ _ _ _))
  · rw [if_pos first] at installed
    rw [(raises_make made noPepper noCurrent).mpr installed]
    exact .halted vacant first (s.supply.draw_length _) (writes_peppered made)

end KeyDirectory

variable {path : String} {s s' : KeyStore} {result : Except KeyError KeyDirectory}

theorem Founding.clean_iff (founding : Founding path s result s') :
    CleanFounding path s result s' ↔ (s.volume.Vacant (Path.ofText path) →
      ¬ s.volume.Holds (Path.ofText path) (keyName "v1") ∧
        ∀ id, s.volume.file? (Path.ofText path ++ [keyName id]) = none) := by
  cases founding with
  | unreached unmade =>
    refine ⟨fun _ vacant => ?_, fun _ => ⟨nofun, nofun, nofun, fun e same noFile => ?_⟩⟩
    · obtain ⟨ground, made⟩ := vacant.reachable
      rw [unmade] at made
      contradiction
    · exact absurd (Except.error.inj same).symm (noFile _)
  | known held same =>
    refine ⟨fun _ vacant => ?_, fun _ => ⟨nofun, nofun, nofun, fun _ _ _ => same⟩⟩
    exact absurd held (not_or.mpr ⟨vacant.noCurrent, vacant.noPepper⟩)
  | halted vacant first size written =>
    refine ⟨fun clean => ?_, fun fresh => absurd first (fresh vacant).1⟩
    -- the pepper stays behind
    have before := clean.unchanged _ rfl nofun (Path.ofText path ++ [pepperName])
    rw [written, Volume.file?_eq_none vacant.noPepper] at before
    simp at before
  | founded vacant absent =>
    refine ⟨fun clean _ => ⟨absent, clean.noKey _ rfl⟩, fun fresh => ⟨?_, ?_, ?_, nofun⟩⟩
    · exact fun _ _ => (fresh vacant).2
    · exact fun _ _ => Volume.file?_eq_none vacant.noCurrent
    · exact fun _ _ => Volume.file?_eq_none vacant.noPepper

/-- What making a key directory comes to, and that it is clean where a directory without a current
id and a pepper has no key either, and not otherwise. -/
theorem make_clean_iff (path : String) (s : KeyStore) :
    Founding path s ((KeyDirectory.make path).run s).1 ((KeyDirectory.make path).run s).2 ∧
      (CleanFounding path s ((KeyDirectory.make path).run s).1 ((KeyDirectory.make path).run s).2 ↔
        (s.volume.Vacant (Path.ofText path) →
          ¬ s.volume.Holds (Path.ofText path) (keyName "v1") ∧
            ∀ id, s.volume.file? (Path.ofText path ++ [keyName id]) = none)) :=
  ⟨founding_make path s, (founding_make path s).clean_iff⟩

namespace Sample

/-- A directory with these keys and nothing else, as it is when the other files were lost. -/
def keysNamed (ids : List String) : KeyStore :=
  ⟨⟨(["keys"], .directory) :: ids.map fun id => (["keys", keyName id], .file [])⟩,
    emptyStore.supply⟩

/-- A later key is taken over, and the first one is refused with a pepper left behind. -/
theorem make_over_lone_keys :
    ¬ CleanFounding "keys" (keysNamed ["v7"]) ((KeyDirectory.make "keys").run (keysNamed ["v7"])).1
        ((KeyDirectory.make "keys").run (keysNamed ["v7"])).2 ∧
      ¬ CleanFounding "keys" (keysNamed ["v1"])
        ((KeyDirectory.make "keys").run (keysNamed ["v1"])).1
        ((KeyDirectory.make "keys").run (keysNamed ["v1"])).2 := by
  constructor
  · intro clean
    have none := clean.noKey ⟨"keys"⟩ (by rfl) "v7"
    exact absurd none (by decide)
  · intro clean
    have same := clean.unchanged (.creation (.keyExists "v1")) (by rfl) nofun ["keys", pepperName]
    exact absurd same (by decide)

end Sample

end SealedColumns
