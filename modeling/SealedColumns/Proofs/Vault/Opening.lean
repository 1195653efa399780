import Mathlib.Data.List.TakeWhile
import SealedColumns.Proofs.Vault.Canonical
import SealedColumns.Proofs.Vault.Sealing

/-!
What a vault opens. A text is opened to a plaintext exactly when it is the text that sealing the
plaintext under some nonce gives, byte for byte; every other text is refused, with the first cause
that applies.
-/
namespace SealedColumns

open Text

namespace Aead

theorem decrypt?_eq_some_iff {key nonce associated sealed plain : Bytes} :
    decrypt? key nonce associated sealed = some plain ↔
      sealed = encrypt key nonce associated plain := by
  constructor
  · intro opened
    unfold decrypt? at opened
    split at opened
    · cases opened
    · dsimp only at opened
      split at opened
      · rename_i tagged
        cases opened
        rw [encrypt, ChaCha20.apply_apply, ← tagged, List.take_append_drop]
      · cases opened
  · rintro rfl
    exact decrypt?_encrypt key nonce associated plain

end Aead

namespace Text

theorem splitLast_eq_some {separator : Char} {s before after : String}
    (split : splitLast separator s = some (before, after)) :
    s = before ++ String.singleton separator ++ after ∧ separator ∉ after.toList := by
  unfold splitLast at split
  rw [List.span_eq_takeWhile_dropWhile] at split
  have whole := List.takeWhile_append_dropWhile (p := (· != separator)) (l := s.toList.reverse)
  have free : separator ∉ s.toList.reverse.takeWhile (· != separator) := by
    intro member
    simpa using List.mem_takeWhile_imp member
  have first := List.head?_dropWhile_not (· != separator) s.toList.reverse
  generalize s.toList.reverse.takeWhile (· != separator) = behind at whole free split
  generalize s.toList.reverse.dropWhile (· != separator) = rest at whole first split
  cases rest with
  | nil => cases split
  | cons c ahead =>
    cases split
    obtain rfl : c = separator := by simpa using first
    refine ⟨?_, by simpa using free⟩
    apply String.toList_inj.mp
    have turned := congrArg List.reverse whole
    simp only [List.reverse_append, List.reverse_cons, List.reverse_reverse] at turned
    simp [← turned]

theorem splitLast_eq_none {separator : Char} {s : String} (split : splitLast separator s = none) :
    separator ∉ s.toList := by
  intro member
  unfold splitLast at split
  rw [List.span_eq_takeWhile_dropWhile] at split
  have passed : s.toList.reverse.dropWhile (· != separator) = [] := by
    generalize s.toList.reverse.dropWhile (· != separator) = rest at split
    cases rest with
    | nil => rfl
    | cons c ahead => cases split
  rw [List.dropWhile_eq_nil_iff] at passed
  simpa using passed separator (List.mem_reverse.mpr member)

end Text

namespace Vault

/-- The key id that a text names: all before its last separator. -/
def namedId? (text : String) : Option String := (splitLast separator text).map Prod.fst

/-- The text is what sealing the plaintext gives under the key of the id and this nonce. -/
structure Seals (v : Vault) (id : String) (nonce : Bytes) (plain text : String) : Prop where
  size : nonce.length = Aead.nonceSize
  sealed : ∃ key, v.dataKey id = .ok key ∧ text = sealText key id nonce plain

/-- Why a text is not opened. Each cause supposes that no earlier one applies. -/
inductive Refused (v : Vault) (text : String) : HandlerError → Prop where
  | noId : separator ∉ text.toList → Refused v text (.decryption "missing key id")
  | notBase64 {id encoded : String} {cause : Base64Error} :
      splitLast separator text = some (id, encoded) → (∀ bytes, encoded ≠ encodeBase64 bytes) →
        decodeBase64 encoded = .error cause →
          Refused v text (.decryption ("invalid base64: " ++ cause.message))
  | short {id : String} {bytes : Bytes} :
      splitLast separator text = some (id, encodeBase64 bytes) → bytes.length < Aead.nonceSize →
        Refused v text (.decryption "ciphertext too short")
  | unknownKey {id : String} {nonce sealed : Bytes} {cause : HandlerError} :
      splitLast separator text = some (id, encodeBase64 (nonce ++ sealed)) →
        nonce.length = Aead.nonceSize → v.dataKey id = .error cause → Refused v text cause
  | notAuthentic {id : String} {key nonce sealed : Bytes} :
      splitLast separator text = some (id, encodeBase64 (nonce ++ sealed)) →
        nonce.length = Aead.nonceSize → v.dataKey id = .ok key →
          (∀ plain, sealed ≠ Aead.encrypt key nonce (encodeUtf8 id) plain) →
            Refused v text .authentication
  | notUtf8 {id : String} {key nonce plain : Bytes} {cause : Utf8Error} :
      splitLast separator text =
          some (id, encodeBase64 (nonce ++ Aead.encrypt key nonce (encodeUtf8 id) plain)) →
        nonce.length = Aead.nonceSize → v.dataKey id = .ok key → (∀ s, plain ≠ encodeUtf8 s) →
          decodeUtf8 plain = .error cause →
            Refused v text (.decryption ("plaintext is not UTF-8: " ++ cause.message))

variable {v : Vault} {text : String}

theorem namedId?_of_splitLast {id encoded : String}
    (split : splitLast separator text = some (id, encoded)) : namedId? text = some id := by
  rw [namedId?, split]
  rfl

theorem unpack_eq_ok {id : String} {bytes : Bytes} (unpacked : unpack text = .ok (id, bytes)) :
    splitLast separator text = some (id, encodeBase64 bytes) ∧
      Aead.nonceSize ≤ bytes.length := by
  unfold unpack at unpacked
  split at unpacked
  · cases unpacked
  · rename_i id' encoded split
    split at unpacked
    · cases unpacked
    · rename_i bytes' decoded
      split at unpacked
      · cases unpacked
      · rename_i long
        cases unpacked
        rw [decodeBase64_eq_ok_iff.mp decoded] at split
        exact ⟨split, Nat.le_of_not_lt long⟩

theorem unpack_refused {cause : HandlerError} (unpacked : unpack text = .error cause) :
    v.Refused text cause := by
  unfold unpack at unpacked
  split at unpacked
  · rename_i whole
    cases unpacked
    exact .noId (splitLast_eq_none whole)
  · rename_i id encoded split
    split at unpacked
    · rename_i fault undecoded
      cases unpacked
      refine .notBase64 split ?_ undecoded
      rintro bytes rfl
      rw [decodeBase64_encodeBase64] at undecoded
      cases undecoded
    · rename_i bytes decoded
      split at unpacked
      · rename_i short
        cases unpacked
        rw [decodeBase64_eq_ok_iff.mp decoded] at split
        exact .short split short
      · cases unpacked

/-- A text that names an id and holds a nonce and an encrypted plaintext is the sealed text. -/
theorem eq_sealText {id plain : String} {key nonce : Bytes}
    (split : splitLast separator text = some (id,
      encodeBase64 (nonce ++ Aead.encrypt key nonce (encodeUtf8 id) (encodeUtf8 plain)))) :
    text = sealText key id nonce plain := by
  rw [(splitLast_eq_some split).1, sealText]

/-- Each text is opened to the plaintext that it seals, or refused. -/
theorem decrypt_cases (v : Vault) (text : String) :
    (∃ plain id nonce, v.decrypt text = .ok plain ∧ namedId? text = some id ∧
      v.Seals id nonce plain text) ∨
    ∃ cause, v.decrypt text = .error cause ∧ v.Refused text cause := by
  rcases unpacked : unpack text with cause | ⟨id, bytes⟩
  · refine .inr ⟨cause, ?_, unpack_refused unpacked⟩
    simp only [decrypt, unpacked, bind, Except.bind]
  obtain ⟨split, long⟩ := unpack_eq_ok unpacked
  obtain ⟨nonce, sealed, rfl, size⟩ : ∃ nonce sealed, bytes = nonce ++ sealed ∧
      nonce.length = Aead.nonceSize :=
    ⟨bytes.take Aead.nonceSize, bytes.drop Aead.nonceSize,
      (List.take_append_drop _ bytes).symm, List.length_take_of_le long⟩
  have named := namedId?_of_splitLast split
  rcases known : v.dataKey id with cause | key
  · refine .inr ⟨cause, ?_, .unknownKey split size known⟩
    simp only [decrypt, unpacked, known, bind, Except.bind]
  have head : (nonce ++ sealed).take Aead.nonceSize = nonce := by rw [← size, List.take_left]
  have tail : (nonce ++ sealed).drop Aead.nonceSize = sealed := by rw [← size, List.drop_left]
  rcases opened : Aead.decrypt? key nonce (encodeUtf8 id) sealed with _ | plain
  · refine .inr ⟨.authentication, ?_, .notAuthentic split size known fun plain encrypted => ?_⟩
    · simp only [decrypt, unpacked, known, head, tail, opened, bind, Except.bind]
      rfl
    · rw [Aead.decrypt?_eq_some_iff.mpr encrypted] at opened
      cases opened
  obtain rfl := Aead.decrypt?_eq_some_iff.mp opened
  rcases read : decodeUtf8 plain with cause | s
  · refine .inr ⟨.decryption ("plaintext is not UTF-8: " ++ cause.message), ?_,
      .notUtf8 split size known (fun s encoded => ?_) read⟩
    · simp only [decrypt, unpacked, known, head, tail, opened, read, bind, Except.bind]
      rfl
    · rw [decodeUtf8_eq_ok_iff.mpr encoded] at read
      cases read
  obtain rfl := decodeUtf8_eq_ok_iff.mp read
  refine .inl ⟨s, id, nonce, ?_, named, size, key, known, eq_sealText split⟩
  simp only [decrypt, unpacked, known, head, tail, opened, read, bind, Except.bind]
  rfl

theorem Seals.named {id plain : String} {nonce : Bytes} (seals : v.Seals id nonce plain text) :
    namedId? text = some id := by
  obtain ⟨key, -, rfl⟩ := seals.sealed
  exact namedId?_of_splitLast (splitLast_sealText key id nonce plain)

theorem Seals.decrypt_eq {id plain : String} {nonce : Bytes} (seals : v.Seals id nonce plain text) :
    v.decrypt text = .ok plain := by
  obtain ⟨key, known, rfl⟩ := seals.sealed
  exact decrypt_sealText known seals.size

theorem Seals.unpack_eq {id plain : String} {nonce : Bytes} (seals : v.Seals id nonce plain text) :
    ∃ sealed, unpack text = .ok (id, nonce ++ sealed) := by
  obtain ⟨key, -, rfl⟩ := seals.sealed
  exact ⟨_, unpack_sealText seals.size⟩

theorem decrypt_eq_ok_iff {plain : String} :
    v.decrypt text = .ok plain ↔
      ∃ id nonce, namedId? text = some id ∧ v.Seals id nonce plain text := by
  constructor
  · intro opened
    obtain ⟨plain', id, nonce, opened', named, seals⟩ | ⟨cause, refused, -⟩ := decrypt_cases v text
    · rw [opened] at opened'
      cases opened'
      exact ⟨id, nonce, named, seals⟩
    · rw [opened] at refused
      cases refused
  · rintro ⟨id, nonce, -, seals⟩
    exact seals.decrypt_eq

/-- The nonce of a text that is opened is the one it holds. -/
theorem seals_of_decrypt {id plain : String} {nonce sealed : Bytes}
    (size : nonce.length = Aead.nonceSize) (unpacked : unpack text = .ok (id, nonce ++ sealed))
    (opened : v.decrypt text = .ok plain) : v.Seals id nonce plain text := by
  obtain ⟨id', nonce', -, seals⟩ := decrypt_eq_ok_iff.mp opened
  obtain ⟨sealed', unpacked'⟩ := seals.unpack_eq
  rw [unpacked] at unpacked'
  simp only [Except.ok.injEq, Prod.mk.injEq] at unpacked'
  obtain ⟨rfl, same⟩ := unpacked'
  obtain ⟨rfl, -⟩ := List.append_inj same (size.trans seals.size.symm)
  exact seals

theorem currentKey_eq_ok_iff {id : String} {key : Bytes} :
    v.currentKey = .ok (id, key) ↔
      v.provider.currentId = .ok id ∧ separator ∉ id.toList ∧ v.dataKey id = .ok key := by
  unfold currentKey
  rcases v.provider.currentId with cause | id'
  · simp [ofKey, bind, Except.bind]
  · by_cases marked : separator ∈ id'.toList
    · simp only [ofKey, bind, Except.bind, List.contains_iff_mem, marked, if_true, throw,
        throwThe, MonadExceptOf.throw, reduceCtorEq, Except.ok.injEq, false_iff, not_and]
      rintro rfl
      exact fun free => absurd marked free
    · rcases known : v.dataKey id' with cause | key'
      · simp only [ofKey, bind, Except.bind, List.contains_iff_mem, marked, if_false, known,
          reduceCtorEq, Except.ok.injEq, false_iff, not_and]
        rintro rfl - other
        rw [known] at other
        cases other
      · simp only [ofKey, bind, Except.bind, List.contains_iff_mem, marked, if_false, pure,
          Except.pure, known, Except.ok.injEq, Prod.mk.injEq]
        constructor
        · rintro ⟨rfl, rfl⟩
          exact ⟨rfl, marked, known⟩
        · rintro ⟨rfl, -, other⟩
          rw [known] at other
          exact ⟨rfl, Except.ok.inj other⟩

/-- Encryption emits the sealed texts under the current id, one for each nonce. -/
theorem emits_iff {plain : String} :
    (∃ supply, (v.encrypt plain supply).1 = .ok text) ↔
      ∃ id nonce, v.provider.currentId = .ok id ∧ separator ∉ id.toList ∧
        v.Seals id nonce plain text := by
  constructor
  · rintro ⟨supply, emitted⟩
    unfold encrypt at emitted
    split at emitted
    · cases emitted
    · rename_i id key current
      obtain ⟨chosen, free, known⟩ := currentKey_eq_ok_iff.mp current
      cases emitted
      refine ⟨id, _, chosen, free, ?_, key, known, rfl⟩
      simp
  · rintro ⟨id, nonce, chosen, free, size, key, known, rfl⟩
    have current := currentKey_eq_ok_iff.mpr ⟨chosen, free, known⟩
    refine ⟨.ofStreams (fun i => nonce.getD i 0) (fun _ => ""), ?_⟩
    have drawn : (List.range Aead.nonceSize).map (fun i => nonce.getD (0 + i) 0) = nonce := by
      rw [← size]
      apply List.ext_getElem
      · simp
      · intro i first second
        simp [List.getD_eq_getElem?_getD, List.getElem?_eq_getElem second]
    simp only [encrypt, current, Supply.draw, Supply.ofStreams, drawn]

/-- A text opens to a plaintext if and only if it is what sealing that plaintext gives under the
key of the id it names and under some nonce, and what encryption emits are the sealed texts of the
current id. So no other text with the same id and nonce opens to the same plaintext, and every text
that is not the image of a plaintext is refused, for a cause that says what is wrong with it. -/
theorem decrypt_accepts_image (v : Vault) (text : String) :
    (∀ plain, v.decrypt text = .ok plain ↔
      ∃ id nonce, namedId? text = some id ∧ v.Seals id nonce plain text) ∧
    (∀ plain, (∃ supply, (v.encrypt plain supply).1 = .ok text) ↔
      ∃ id nonce, v.provider.currentId = .ok id ∧ separator ∉ id.toList ∧
        v.Seals id nonce plain text) ∧
    (∀ other plain id nonce sealed sealed', nonce.length = Aead.nonceSize →
      unpack text = .ok (id, nonce ++ sealed) → unpack other = .ok (id, nonce ++ sealed') →
        v.decrypt text = .ok plain → v.decrypt other = .ok plain → other = text) ∧
    ((¬ ∃ plain id nonce, namedId? text = some id ∧ v.Seals id nonce plain text) →
      ∃ cause, v.decrypt text = .error cause ∧ v.Refused text cause) := by
  refine ⟨fun plain => decrypt_eq_ok_iff, fun plain => emits_iff, ?_, ?_⟩
  · intro other plain id nonce sealed sealed' size unpacked unpacked' opened opened'
    obtain ⟨key, known, shape⟩ := (seals_of_decrypt size unpacked opened).sealed
    obtain ⟨key', known', shape'⟩ := (seals_of_decrypt size unpacked' opened').sealed
    rw [known] at known'
    rw [shape, shape', Except.ok.inj known']
  · intro foreign
    obtain ⟨plain, id, nonce, -, named, seals⟩ | refused := decrypt_cases v text
    · exact absurd ⟨plain, id, nonce, named, seals⟩ foreign
    · exact refused

end Vault

end SealedColumns
