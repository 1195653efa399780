import SealedColumns.Keys.Static
import SealedColumns.Proofs.Members
import SealedColumns.Proofs.Vault.Opening

/-!
Keys in memory that others are added to. The current id stays, and an id has the key that was
retired last under it, or else the key that it had before. So texts are opened as before while their
ids have the same keys; but a key that is retired under the id of another one takes its place, even
under the current id.
-/
namespace SealedColumns

open Text

/-- What can be added to keys in memory. -/
inductive KeyAddition where
  | retired (id : String) (key : Bytes)
  | pepper (bytes : Bytes)
deriving DecidableEq, Repr

namespace KeyAddition

def keyFor? (asked : String) : KeyAddition → Option Bytes
  | .retired id key => if asked = id then some key else none
  | .pepper _ => none

/-- The key that is retired last under an id. -/
def lastKey? (additions : List KeyAddition) (asked : String) : Option Bytes :=
  (additions.filterMap (·.keyFor? asked)).getLast?

theorem lastKey?_append (earlier later : List KeyAddition) (asked : String) :
    lastKey? (earlier ++ later) asked = (lastKey? later asked).or (lastKey? earlier asked) := by
  rw [lastKey?, lastKey?, lastKey?, List.filterMap_append, List.getLast?_append]

end KeyAddition

open KeyAddition

namespace StaticKeys

variable {k middle after : StaticKeys} {earlier later additions : List KeyAddition} {id : String}

def add (k : StaticKeys) : KeyAddition → Except KeyError StaticKeys
  | .retired id key => k.withRetired id key
  | .pepper bytes => k.withPepper bytes

def addAll (k : StaticKeys) (additions : List KeyAddition) : Except KeyError StaticKeys :=
  additions.foldlM add k

/-- What additions leave as it is, and the keys that come of them. -/
structure Added (k : StaticKeys) (additions : List KeyAddition) (after : StaticKeys) : Prop where
  current : after.current = k.current
  keys : ∀ id, after.keys.get? id = (lastKey? additions id).or (k.keys.get? id)
  pepper : k.pepper ≠ none → after.pepper ≠ none

theorem Added.refl (k : StaticKeys) : k.Added [] k := ⟨rfl, fun _ => rfl, fun some => some⟩

theorem Added.trans (first : k.Added earlier middle) (second : middle.Added later after) :
    k.Added (earlier ++ later) after := by
  refine ⟨second.current.trans first.current, fun id => ?_, fun some => ?_⟩
  · rw [second.keys, first.keys, lastKey?_append, Option.or_assoc]
  · exact second.pepper (first.pepper some)

theorem added_of_add {addition : KeyAddition} (done : k.add addition = .ok after) :
    k.Added [addition] after := by
  cases addition with
  | retired id key =>
    simp only [add, withRetired, checkLength] at done
    split at done
    · cases done
      refine ⟨rfl, fun asked => ?_, fun some => some⟩
      rw [Members.get?_insert]
      by_cases same : asked = id <;> simp [lastKey?, keyFor?, same]
    · cases done
  | pepper bytes =>
    simp only [add, withPepper, checkLength] at done
    split at done
    · cases done
      exact ⟨rfl, fun _ => rfl, nofun⟩
    · cases done

theorem added_of_addAll (done : k.addAll additions = .ok after) : k.Added additions after := by
  induction additions generalizing k with
  | nil =>
    cases done
    exact .refl _
  | cons addition additions ih =>
    rw [addAll, List.foldlM_cons] at done
    rcases step : k.add addition with e | next
    · rw [step] at done
      cases done
    · rw [step] at done
      exact (added_of_add step).trans (ih done)

/-- The id comes to have a key that it did not have. -/
def Displaced (k : StaticKeys) (additions : List KeyAddition) (id : String) : Prop :=
  lastKey? additions id ≠ none ∧ lastKey? additions id ≠ k.keys.get? id

instance (k : StaticKeys) (additions : List KeyAddition) (id : String) :
    Decidable (k.Displaced additions id) :=
  inferInstanceAs (Decidable (_ ∧ _))

theorem Added.get?_eq_iff (added : k.Added additions after) (id : String) :
    after.keys.get? id = k.keys.get? id ↔ ¬ k.Displaced additions id := by
  rw [added.keys, Displaced]
  cases lastKey? additions id <;> simp

theorem provider_key_eq_iff :
    after.provider.key id = k.provider.key id ↔ after.keys.get? id = k.keys.get? id := by
  simp only [provider]
  cases after.keys.get? id <;> cases k.keys.get? id <;> simp

theorem ofProvider_eq_ok (peppered : k.pepper ≠ none) :
    ∃ v, Vault.ofProvider k.provider = .ok v ∧ v.provider = k.provider := by
  obtain ⟨pepper, there⟩ := Option.ne_none_iff_exists'.mp peppered
  refine ⟨⟨k.provider, deriveKey pepper Vault.indexKeyId .index⟩, ?_, rfl⟩
  simp only [Vault.ofProvider, Vault.indexKey?, provider, there]
  rfl

end StaticKeys

namespace Vault

variable {v w : Vault} {text : String}

/-- Of all keys, only that of the id which a text names has a part in opening it. -/
theorem decrypt_congr (same : ∀ id, namedId? text = some id → w.dataKey id = v.dataKey id) :
    w.decrypt text = v.decrypt text := by
  rcases unpacked : unpack text with cause | ⟨id, bytes⟩
  · simp only [decrypt, unpacked, bind, Except.bind]
  · have named := namedId?_of_splitLast (unpack_eq_ok unpacked).1
    simp only [decrypt, unpacked, same id named, bind, Except.bind]

end Vault

open StaticKeys

/-- Additions keep the current id, and its key unless another one is retired under it. A vault
opens all texts as before whose ids have the same keys, so all that was encrypted at any point,
unless the key of the current id was displaced since then. -/
theorem additions_keep_texts {k middle after : StaticKeys} {earlier later : List KeyAddition}
    (peppered : k.pepper ≠ none) (toMiddle : k.addAll earlier = .ok middle)
    (toAfter : middle.addAll later = .ok after) :
    after.current = k.current ∧
      (∀ id, after.keys.get? id = (lastKey? (earlier ++ later) id).or (k.keys.get? id)) ∧
      (after.provider.key after.current = k.provider.key k.current ↔
        ¬ k.Displaced (earlier ++ later) k.current) ∧
      ∃ v w, Vault.ofProvider middle.provider = .ok v ∧ Vault.ofProvider after.provider = .ok w ∧
        (∀ text id, Vault.namedId? text = some id → ¬ middle.Displaced later id →
          w.decrypt text = v.decrypt text) ∧
        (¬ middle.Displaced later k.current → ∀ plain supply text,
          (v.encrypt plain supply).1 = .ok text → w.decrypt text = .ok plain) := by
  have first := added_of_addAll toMiddle
  have second := added_of_addAll toAfter
  have whole := first.trans second
  obtain ⟨v, openedMiddle, middleKeys⟩ := ofProvider_eq_ok (first.pepper peppered)
  obtain ⟨w, openedAfter, afterKeys⟩ := ofProvider_eq_ok (whole.pepper peppered)
  have reads : ∀ text id, Vault.namedId? text = some id → ¬ middle.Displaced later id →
      w.decrypt text = v.decrypt text := by
    intro text id named kept
    refine Vault.decrypt_congr fun other also => ?_
    obtain rfl := Option.some.inj (named.symm.trans also)
    rw [Vault.dataKey, Vault.dataKey, afterKeys, middleKeys,
      provider_key_eq_iff.mpr ((second.get?_eq_iff id).mpr kept)]
  refine ⟨whole.current, whole.keys, ?_, v, w, openedMiddle, openedAfter, reads, ?_⟩
  · rw [whole.current, provider_key_eq_iff, whole.get?_eq_iff]
  · intro kept plain supply text emitted
    obtain ⟨id, nonce, chosen, -, seals⟩ := Vault.emits_iff.mp ⟨supply, emitted⟩
    rw [middleKeys] at chosen
    have same : id = k.current := (Except.ok.inj chosen).symm.trans first.current
    rw [reads text id seals.named (same ▸ kept), seals.decrypt_eq]

namespace Sample

/-- Keys with a current one only, and a pepper. -/
def soleKey : StaticKeys :=
  ⟨"k2", [("k2", List.replicate 32 42)], some (List.replicate 32 7)⟩

def olderKey : List KeyAddition := [.retired "k1" (List.replicate 32 1)]

def nextPepper : List KeyAddition := [.pepper (List.replicate 32 9)]

theorem additions_keep_texts_older :
    soleKey.pepper ≠ none ∧ ∃ middle after, soleKey.addAll olderKey = .ok middle ∧
      middle.addAll nextPepper = .ok after ∧ ¬ middle.Displaced nextPepper soleKey.current ∧
      ∃ v w, Vault.ofProvider middle.provider = .ok v ∧ Vault.ofProvider after.provider = .ok w ∧
        ∀ plain supply text, (v.encrypt plain supply).1 = .ok text →
          w.decrypt text = .ok plain := by
  have peppered : soleKey.pepper ≠ none := nofun
  obtain ⟨-, -, -, v, w, openedMiddle, openedAfter, -, keeps⟩ :=
    @additions_keep_texts soleKey _ _ olderKey nextPepper peppered rfl rfl
  exact ⟨peppered, _, _, rfl, rfl, by decide, v, w, openedMiddle, openedAfter, keeps (by decide)⟩

def otherKey : List KeyAddition := [.retired "k2" (List.replicate 32 1)]

/-- A key retired under the current id displaces the current key, and what was encrypted before is
not opened any more. -/
theorem current_key_displaced :
    ∃ after v w text, soleKey.addAll otherKey = .ok after ∧
      Vault.ofProvider soleKey.provider = .ok v ∧ Vault.ofProvider after.provider = .ok w ∧
      after.provider.key after.current ≠ soleKey.provider.key soleKey.current ∧
      (v.encrypt "alice" (.ofStreams (fun n => UInt8.ofNat n) fun _ => "name")).1 = .ok text ∧
      w.decrypt text = .error .authentication := by
  refine ⟨_, _, _, "k2:AAECAwQFBgcICQoLewqz4miCfP46HWSbjRwkvZzhLj9U", rfl, rfl, rfl, by decide,
    ?_, ?_⟩
  · decide +kernel
  · decide +kernel

end Sample

end SealedColumns
