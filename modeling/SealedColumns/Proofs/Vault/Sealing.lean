import Mathlib.Data.List.TakeDrop
import SealedColumns.Proofs.Vault.Coding
import SealedColumns.Vault

/-!
A text that was sealed under a key is opened by every vault that knows the key under the same id.
-/
namespace SealedColumns

open Text

namespace Bytes

theorem xor_xor {message stream : Bytes} (covered : message.length ≤ stream.length) :
    xor (xor message stream) stream = message := by
  induction message generalizing stream with
  | nil => rfl
  | cons b message ih =>
    cases stream with
    | nil => simp at covered
    | cons k stream =>
      have rest := ih (Nat.le_of_succ_le_succ covered)
      simp only [xor, List.zipWith_cons_cons, List.cons.injEq] at rest ⊢
      refine ⟨?_, rest⟩
      rw [UInt8.xor_assoc, UInt8.xor_self, UInt8.xor_zero]

@[simp] theorem ofNat_length (count n : Nat) : (ofNat count n).length = count := by
  induction count generalizing n with
  | zero => rfl
  | succ count ih => simp [ofNat, ih]

end Bytes

namespace ChaCha20

@[simp] theorem Row.bytes_length (x : Row) : x.bytes.length = 16 := rfl

@[simp] theorem block_length (key nonce : Bytes) (counter : Nat) :
    (block key nonce counter).length = 64 := by
  simp [block, State.bytes]

theorem keystream_length (key nonce : Bytes) (count : Nat) :
    ∀ counter, (keystream key nonce counter count).length = 64 * count := by
  induction count with
  | zero => intro counter; rfl
  | succ count ih =>
    intro counter
    rw [keystream, List.length_append, block_length, ih]
    omega

theorem keystream_covers (key nonce : Bytes) (length counter : Nat) :
    length ≤ (keystream key nonce counter ((length + 63) / 64)).length := by
  rw [keystream_length]
  omega

@[simp] theorem apply_length (key nonce message : Bytes) :
    (apply key nonce message).length = message.length := by
  have covers := keystream_covers key nonce message.length 1
  simp only [apply, Bytes.xor, List.length_zipWith]
  omega

@[simp] theorem apply_apply (key nonce message : Bytes) :
    apply key nonce (apply key nonce message) = message := by
  have covers := keystream_covers key nonce message.length 1
  rw [apply, apply_length, apply, Bytes.xor_xor covers]

end ChaCha20

namespace Aead

theorem tag_length (key nonce associated ciphertext : Bytes) :
    (tag key nonce associated ciphertext).length = tagSize := by
  simp [tag, Poly1305.tag, tagSize]

theorem decrypt?_encrypt (key nonce associated plain : Bytes) :
    decrypt? key nonce associated (encrypt key nonce associated plain) = some plain := by
  have size := tag_length key nonce associated (ChaCha20.apply key nonce plain)
  have whole : (encrypt key nonce associated plain).length = plain.length + tagSize := by
    simp [encrypt, size]
  have long : ¬ plain.length + tagSize < tagSize := by omega
  have cut : plain.length + tagSize - tagSize = (ChaCha20.apply key nonce plain).length := by
    rw [ChaCha20.apply_length]
    omega
  simp only [decrypt?, whole, long, if_false, cut]
  simp [encrypt]

end Aead

namespace Text

theorem splitLast_append {separator : Char} {after : List Char} (free : separator ∉ after)
    (before : List Char) :
    splitLast separator (String.ofList (before ++ separator :: after)) =
      some (String.ofList before, String.ofList after) := by
  have passed : ∀ c ∈ after.reverse, (c != separator) = true := by
    intro c member
    have other : c ≠ separator := by
      rintro rfl
      exact free (List.mem_reverse.mp member)
    simp [other]
  have span : (after.reverse ++ separator :: before.reverse).span (· != separator) =
      (after.reverse, separator :: before.reverse) := by
    rw [List.span_eq_takeWhile_dropWhile, List.takeWhile_append_of_pos passed,
      List.dropWhile_append_of_pos passed]
    simp
  simp only [splitLast, String.toList_ofList, List.reverse_append, List.reverse_cons,
    List.append_assoc, List.cons_append, List.nil_append, span, List.reverse_reverse]

end Text

namespace Vault

theorem separator_notMem_encodeBase64Chars (bytes : Bytes) :
    separator ∉ encodeBase64Chars bytes :=
  fun member => (encodeBase64Chars_plain member).2 rfl

theorem splitLast_sealText (key : Bytes) (id : String) (nonce : Bytes) (plain : String) :
    splitLast separator (sealText key id nonce plain) =
      some (id,
        encodeBase64 (nonce ++ Aead.encrypt key nonce (encodeUtf8 id) (encodeUtf8 plain))) := by
  generalize bytes : nonce ++ Aead.encrypt key nonce (encodeUtf8 id) (encodeUtf8 plain) = packed
  have text : sealText key id nonce plain =
      String.ofList (id.toList ++ separator :: encodeBase64Chars packed) := by
    rw [sealText, bytes, encodeBase64]
    apply String.toList_inj.mp
    simp
  rw [text, splitLast_append (separator_notMem_encodeBase64Chars packed), String.ofList_toList]
  rfl

theorem unpack_sealText {key nonce : Bytes} {id plain : String}
    (twelve : nonce.length = Aead.nonceSize) :
    unpack (sealText key id nonce plain) =
      .ok (id, nonce ++ Aead.encrypt key nonce (encodeUtf8 id) (encodeUtf8 plain)) := by
  have long : ¬ (nonce ++ Aead.encrypt key nonce (encodeUtf8 id) (encodeUtf8 plain)).length <
      Aead.nonceSize := by
    rw [List.length_append, twelve]
    omega
  simp only [unpack, splitLast_sealText, decodeBase64_encodeBase64, long, if_false]

theorem decrypt_sealText {v : Vault} {key nonce : Bytes} {id plain : String}
    (known : v.dataKey id = .ok key) (twelve : nonce.length = Aead.nonceSize) :
    v.decrypt (sealText key id nonce plain) = .ok plain := by
  have head : (nonce ++ Aead.encrypt key nonce (encodeUtf8 id) (encodeUtf8 plain)).take
      Aead.nonceSize = nonce := by rw [← twelve, List.take_left]
  have tail : (nonce ++ Aead.encrypt key nonce (encodeUtf8 id) (encodeUtf8 plain)).drop
      Aead.nonceSize = Aead.encrypt key nonce (encodeUtf8 id) (encodeUtf8 plain) := by
    rw [← twelve, List.drop_left]
  simp only [decrypt, unpack_sealText twelve, known, bind, Except.bind]
  simp only [head, tail, Aead.decrypt?_encrypt, decodeUtf8_encodeUtf8]
  rfl

end Vault

end SealedColumns
