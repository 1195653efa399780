import SealedColumns.Text.Base64

/-!
Texts and bytes go through their encodings and back: UTF-8 for every text, Base64 for every list of
bytes.
-/
namespace SealedColumns.Text

section Utf8

theorem toNat_ofNat_small {n : Nat} (small : n < 256) : (UInt8.ofNat n).toNat = n := by
  rw [UInt8.toNat_ofNat']
  omega

theorem decodeTail_cons {n low high : Nat} (small : n < 256) (above : low ≤ n) (below : n ≤ high)
    (index taken owed code : Nat) (rest : Bytes) :
    decodeTail index taken (owed + 1) code low high (UInt8.ofNat n :: rest) =
      decodeTail index (taken + 1) owed (code * 64 + n % 64) 0x80 0xBF rest := by
  have inside : (decide (low ≤ n) && decide (n ≤ high)) = true := by simp [above, below]
  simp only [decodeTail, toNat_ofNat_small small, inside, if_true]

theorem leadBounds_one {n : Nat} (below : n ≤ 0x7F) : leadBounds n = some (0, 0, 1) := by
  have ascii : n < 0x80 := by omega
  simp only [leadBounds, ascii, if_true]

theorem leadBounds_two {n : Nat} (above : 0xC2 ≤ n) (below : n ≤ 0xDF) :
    leadBounds n = some (0x80, 0xBF, 2) := by
  have wide : ¬ n < 0x80 := by omega
  simp [leadBounds, wide, above, below]

theorem leadBounds_three {n : Nat} (above : 0xE0 ≤ n) (below : n ≤ 0xEF) :
    leadBounds n =
      some (if n = 0xE0 then 0xA0 else 0x80, if n = 0xED then 0x9F else 0xBF, 3) := by
  have wide : ¬ n < 0x80 := by omega
  have past : ¬ n ≤ 0xDF := by omega
  by_cases first : n = 0xE0
  · simp [leadBounds, first]
  · by_cases surrogates : n = 0xED
    · simp [leadBounds, surrogates]
    · have inner : 0xE1 ≤ n := by omega
      simp [leadBounds, wide, past, first, surrogates, inner, below]

theorem leadBounds_four {n : Nat} (above : 0xF0 ≤ n) (below : n ≤ 0xF4) :
    leadBounds n =
      some (if n = 0xF0 then 0x90 else 0x80, if n = 0xF4 then 0x8F else 0xBF, 4) := by
  obtain rfl | rfl | rfl | rfl | rfl :
      n = 0xF0 ∨ n = 0xF1 ∨ n = 0xF2 ∨ n = 0xF3 ∨ n = 0xF4 := by omega
  all_goals rfl

theorem decodeChar_ofNat {n low high width code : Nat} {bytes rest : Bytes} {index : Nat}
    (small : n < 256) (bounds : leadBounds n = some (low, high, width))
    (tail : decodeTail index 1 (width - 1) (if width == 1 then n else n % Nat.pow 2 (7 - width))
      low high bytes = .ok (code, rest)) :
    decodeChar index (UInt8.ofNat n) bytes = .ok (Char.ofNat code, width, rest) := by
  simp only [decodeChar, toNat_ofNat_small small, bounds]
  rw [tail]
  rfl

theorem decodeChar_utf8EncodeChar (c : Char) :
    ∃ lead tail, String.utf8EncodeChar c = lead :: tail ∧
      ∀ index rest, ∃ width, decodeChar index lead (tail ++ rest) = .ok (c, width, rest) := by
  have back : Char.ofNat c.val.toNat = c := Char.ofNat_toNat c
  have valid : c.val.toNat < 0xD800 ∨ 0xDFFF < c.val.toNat ∧ c.val.toNat < 0x110000 := c.valid
  simp only [String.utf8EncodeChar]
  generalize c.val.toNat = v at back valid
  subst back
  split
  · case isTrue one =>
      refine ⟨_, _, rfl, fun index rest => ⟨1, ?_⟩⟩
      exact decodeChar_ofNat (by omega) (leadBounds_one one) rfl
  split
  · case isTrue one two =>
      refine ⟨_, _, rfl, fun index rest => ⟨2, ?_⟩⟩
      have code : (v / 64 % 32 + 192) % 32 * 64 + (v % 64 + 128) % 64 = v := by omega
      have bounds := leadBounds_two (n := v / 64 % 32 + 192) (by omega) (by omega)
      refine decodeChar_ofNat (by omega) bounds ?_
      refine (decodeTail_cons (by omega) (by omega) (by omega) _ _ _ _ _).trans ?_
      exact congrArg (fun n => Except.ok (n, rest)) code
  split
  · case isTrue one two three =>
      refine ⟨_, _, rfl, fun index rest => ⟨3, ?_⟩⟩
      have code : ((v / 4096 % 16 + 224) % 16 * 64 + (v / 64 % 64 + 128) % 64) * 64 +
          (v % 64 + 128) % 64 = v := by omega
      have bounds := leadBounds_three (n := v / 4096 % 16 + 224) (by omega) (by omega)
      refine decodeChar_ofNat (by omega) bounds ?_
      -- only the bounds of the second byte depend on the first one
      refine (decodeTail_cons (by omega) (by split <;> omega) (by split <;> omega)
        _ _ _ _ _).trans ?_
      refine (decodeTail_cons (by omega) (by omega) (by omega) _ _ _ _ _).trans ?_
      exact congrArg (fun n => Except.ok (n, rest)) code
  · case isFalse one two three =>
      refine ⟨_, _, rfl, fun index rest => ⟨4, ?_⟩⟩
      have code : (((v / 262144 % 8 + 240) % 8 * 64 + (v / 4096 % 64 + 128) % 64) * 64 +
          (v / 64 % 64 + 128) % 64) * 64 + (v % 64 + 128) % 64 = v := by omega
      have bounds := leadBounds_four (n := v / 262144 % 8 + 240) (by omega) (by omega)
      refine decodeChar_ofNat (by omega) bounds ?_
      refine (decodeTail_cons (by omega) (by split <;> omega) (by split <;> omega)
        _ _ _ _ _).trans ?_
      refine (decodeTail_cons (by omega) (by omega) (by omega) _ _ _ _ _).trans ?_
      refine (decodeTail_cons (by omega) (by omega) (by omega) _ _ _ _ _).trans ?_
      exact congrArg (fun n => Except.ok (n, rest)) code

theorem decodeUtf8Chars_flatMap (cs : List Char) :
    ∀ fuel index : Nat, (cs.flatMap String.utf8EncodeChar).length ≤ fuel →
      decodeUtf8Chars fuel index (cs.flatMap String.utf8EncodeChar) = .ok cs := by
  induction cs with
  | nil =>
    intro fuel index _
    simp [decodeUtf8Chars]
  | cons c cs ih =>
    intro fuel index enough
    obtain ⟨lead, tail, bytes, decodes⟩ := decodeChar_utf8EncodeChar c
    simp only [List.flatMap_cons, bytes, List.cons_append] at enough ⊢
    cases fuel with
    | zero => simp at enough
    | succ fuel =>
      obtain ⟨width, first⟩ := decodes index (cs.flatMap String.utf8EncodeChar)
      have left : (cs.flatMap String.utf8EncodeChar).length ≤ fuel := by
        simp only [List.length_cons, List.length_append] at enough
        omega
      have rest := ih fuel (index + width) left
      simp only [decodeUtf8Chars, first]
      change (decodeUtf8Chars fuel (index + width) _ >>= fun cs => pure (c :: cs)) = _
      rw [rest]
      rfl

@[simp] theorem decodeUtf8_encodeUtf8 (s : String) : decodeUtf8 (encodeUtf8 s) = .ok s := by
  have chars := decodeUtf8Chars_flatMap s.toList (encodeUtf8 s).length 0 (Nat.le_refl _)
  simp only [decodeUtf8, encodeUtf8] at chars ⊢
  rw [chars]
  simp [Except.map]

theorem encodeUtf8_ofList_ascii {cs : List Char} (ascii : ∀ c ∈ cs, c.toNat < 0x80) :
    encodeUtf8 (String.ofList cs) = cs.map fun c => UInt8.ofNat c.toNat := by
  simp only [encodeUtf8, String.toList_ofList]
  induction cs with
  | nil => rfl
  | cons c cs ih =>
    have first : c.val.toNat ≤ 127 := Nat.le_of_lt_succ (ascii c List.mem_cons_self)
    have head : String.utf8EncodeChar c = [UInt8.ofNat c.toNat] := by
      simp only [String.utf8EncodeChar, first, if_true]
      rfl
    have rest := ih fun d member => ascii d (List.mem_cons_of_mem _ member)
    rw [List.flatMap_cons, head, rest]
    rfl

end Utf8

section Base64

def symbolByte (n : Nat) : UInt8 := UInt8.ofNat (base64Symbol n).toNat

theorem base64Value?_symbolByte {n : Nat} (small : n < 64) :
    base64Value? (symbolByte n) = some n := by
  have all : ∀ i : Fin 64, base64Value? (symbolByte i) = some i.val := by decide
  exact all ⟨n, small⟩

theorem symbolByte_ne_padding {n : Nat} (small : n < 64) : (symbolByte n != padding) = true := by
  have all : ∀ i : Fin 64, (symbolByte i != padding) = true := by decide
  exact all ⟨n, small⟩

theorem base64Symbol_plain {n : Nat} (small : n < 64) :
    (base64Symbol n).toNat < 0x80 ∧ base64Symbol n ≠ ':' := by
  have all : ∀ i : Fin 64, (base64Symbol i).toNat < 0x80 ∧ base64Symbol i ≠ ':' := by decide
  exact all ⟨n, small⟩

theorem symbolValues_map {values : List Nat} (small : ∀ n ∈ values, n < 64) :
    ∀ offset, symbolValues offset (values.map symbolByte) = .ok values := by
  induction values with
  | nil => intro offset; rfl
  | cons n values ih =>
    intro offset
    have rest := ih (fun m member => small m (List.mem_cons_of_mem _ member)) (offset + 1)
    simp only [List.map_cons, symbolValues, base64Value?_symbolByte (small n List.mem_cons_self)]
    rw [rest]
    rfl

/-- The symbols of a group and its filling, as bytes. -/
def groupBytes (values : List Nat) (filling : Nat) : Bytes :=
  values.map symbolByte ++ List.replicate filling padding

theorem decodeLastGroup_groupBytes {values : List Nat} {filling : Nat} {bytes : Bytes}
    (small : ∀ n ∈ values, n < 64) (two : 2 ≤ values.length)
    (whole : (values.length + filling) % 4 = 0) (packs : packSymbols values = some bytes)
    (offset : Nat) : decodeLastGroup offset (groupBytes values filling) = .ok bytes := by
  have symbol : ∀ b ∈ values.map symbolByte, (b != padding) = true := by
    intro b member
    obtain ⟨n, inside, rfl⟩ := List.mem_map.mp member
    exact symbolByte_ne_padding (small n inside)
  have noSymbol : (List.replicate filling padding).takeWhile (· != padding) = [] := by
    cases filling <;> simp [List.replicate_succ]
  have taken : (groupBytes values filling).takeWhile (· != padding) = values.map symbolByte := by
    rw [groupBytes, List.takeWhile_append_of_pos symbol, noSymbol, List.append_nil]
  have marks : (groupBytes values filling).dropWhile (· != padding) =
      List.replicate filling padding := by
    rw [groupBytes, List.dropWhile_append_of_pos symbol]
    cases filling <;> simp [List.replicate_succ]
  have length : (groupBytes values filling).length = values.length + filling := by
    simp [groupBytes]
  have notFew : ¬ values.length < 2 := by omega
  have onlyMarks : (List.replicate filling padding).any (· != padding) = false := by
    simp
  simp [decodeLastGroup, taken, marks, length, symbolValues_map small, whole, onlyMarks, packs,
    notFew, bind, Except.bind, pure, Except.pure]

theorem encodeBase64Chars_bytes_mem (bytes : Bytes) :
    ∀ c ∈ encodeBase64Chars bytes, c = '=' ∨ ∃ n < 64, c = base64Symbol n := by
  fun_induction encodeBase64Chars bytes with
  | case1 a b c rest n ih =>
    have bounded : n < 16777216 := by
      have := a.toNat_lt
      have := b.toNat_lt
      have := c.toNat_lt
      omega
    intro symbol member
    simp only [List.mem_cons] at member
    obtain rfl | rfl | rfl | rfl | member := member
    · exact .inr ⟨_, by omega, rfl⟩
    · exact .inr ⟨_, by omega, rfl⟩
    · exact .inr ⟨_, by omega, rfl⟩
    · exact .inr ⟨_, by omega, rfl⟩
    · exact ih symbol member
  | case2 a b n =>
    have bounded : n < 65536 := by
      have := a.toNat_lt
      have := b.toNat_lt
      omega
    intro symbol member
    simp only [List.mem_cons, List.not_mem_nil, or_false] at member
    obtain rfl | rfl | rfl | rfl := member
    · exact .inr ⟨_, by omega, rfl⟩
    · exact .inr ⟨_, by omega, rfl⟩
    · exact .inr ⟨_, by omega, rfl⟩
    · exact .inl rfl
  | case3 a =>
    have bounded := a.toNat_lt
    intro symbol member
    simp only [List.mem_cons, List.not_mem_nil, or_false] at member
    obtain rfl | rfl | rfl | rfl := member
    · exact .inr ⟨_, by omega, rfl⟩
    · exact .inr ⟨_, by omega, rfl⟩
    · exact .inl rfl
    · exact .inl rfl
  | case4 => simp

theorem encodeBase64Chars_plain {bytes : Bytes} {c : Char} (member : c ∈ encodeBase64Chars bytes) :
    c.toNat < 0x80 ∧ c ≠ ':' := by
  obtain rfl | ⟨n, small, rfl⟩ := encodeBase64Chars_bytes_mem bytes c member
  · decide
  · exact base64Symbol_plain small

/-- The symbols as bytes, which is what decoding reads. -/
def base64Bytes (bytes : Bytes) : Bytes :=
  (encodeBase64Chars bytes).map fun c => UInt8.ofNat c.toNat

theorem encodeUtf8_encodeBase64 (bytes : Bytes) :
    encodeUtf8 (encodeBase64 bytes) = base64Bytes bytes :=
  encodeUtf8_ofList_ascii fun _ member => (encodeBase64Chars_plain member).1

theorem base64Bytes_length (bytes : Bytes) : (base64Bytes bytes).length % 4 = 0 := by
  rw [base64Bytes, List.length_map]
  fun_induction encodeBase64Chars bytes with
  | case1 a b c rest n ih =>
    simp only [List.length_cons]
    omega
  | case2 => simp
  | case3 => simp
  | case4 => rfl

theorem decodeGroups_four {group : Bytes} (four : group.length = 4) (offset : Nat) :
    decodeGroups offset group = decodeLastGroup offset group := by
  match group, four with
  | [_, _, _, _], _ => rfl

theorem decodeGroups_last {values : List Nat} {bytes : Bytes} (filling : Nat)
    (small : ∀ n ∈ values, n < 64) (two : 2 ≤ values.length)
    (whole : values.length + filling = 4) (packs : packSymbols values = some bytes)
    (offset : Nat) : decodeGroups offset (groupBytes values filling) = .ok bytes := by
  have length : (groupBytes values filling).length = 4 := by simpa [groupBytes] using whole
  have four : (values.length + filling) % 4 = 0 := by rw [whole]
  rw [decodeGroups_four length]
  exact decodeLastGroup_groupBytes small two four packs offset

theorem decodeGroups_append {a b c d : Nat} {bytes rest more : Bytes}
    (small : ∀ n ∈ [a, b, c, d], n < 64) (packs : packSymbols [a, b, c, d] = some bytes)
    (decodes : ∀ offset, decodeGroups offset rest = .ok more) (offset : Nat) :
    decodeGroups offset (groupBytes [a, b, c, d] 0 ++ rest) = .ok (bytes ++ more) := by
  cases rest with
  | nil =>
    obtain rfl : [] = more := Except.ok.inj (decodes 0)
    rw [List.append_nil, List.append_nil]
    exact decodeGroups_last 0 small (Nat.le_add_left 2 2) rfl packs offset
  | cons e rest =>
    have values := symbolValues_map small offset
    simp only [List.map_cons, List.map_nil] at values
    simp [groupBytes, decodeGroups, values, decodes, packs, bind, Except.bind, pure, Except.pure]

theorem ofNat_eq {b : UInt8} {n : Nat} (same : n = b.toNat) : UInt8.ofNat n = b := by
  rw [same, UInt8.ofNat_toNat]

theorem packSymbols_three (a b c : UInt8) {n : Nat}
    (number : n = a.toNat * 65536 + b.toNat * 256 + c.toNat) :
    packSymbols [n / 262144, n / 4096 % 64, n / 64 % 64, n % 64] = some [a, b, c] := by
  have boundA := a.toNat_lt
  have boundB := b.toNat_lt
  have boundC := c.toNat_lt
  simp only [packSymbols, Option.some.injEq, List.cons.injEq, and_true]
  exact ⟨ofNat_eq (by omega), ofNat_eq (by omega), ofNat_eq (by omega)⟩

theorem packSymbols_two (a b : UInt8) {n : Nat} (number : n = a.toNat * 256 + b.toNat) :
    packSymbols [n / 1024, n / 16 % 64, n % 16 * 4] = some [a, b] := by
  have boundA := a.toNat_lt
  have boundB := b.toNat_lt
  have clean : (((n / 1024 * 64 + n / 16 % 64) * 64 + n % 16 * 4) % 4 == 0) = true := by
    rw [beq_iff_eq]
    omega
  simp only [packSymbols, clean, if_true, Option.some.injEq, List.cons.injEq, and_true]
  exact ⟨ofNat_eq (by omega), ofNat_eq (by omega)⟩

theorem packSymbols_one (a : UInt8) :
    packSymbols [a.toNat / 4, a.toNat % 4 * 16] = some [a] := by
  have boundA := a.toNat_lt
  have clean : (a.toNat % 4 * 16 % 16 == 0) = true := by
    rw [beq_iff_eq]
    omega
  simp only [packSymbols, clean, if_true, Option.some.injEq, List.cons.injEq, and_true]
  exact ofNat_eq (by omega)

theorem decodeGroups_base64Bytes (bytes : Bytes) :
    ∀ offset, decodeGroups offset (base64Bytes bytes) = .ok bytes := by
  induction bytes using encodeBase64Chars.induct with
  | case1 a b c rest ih =>
    have boundA := a.toNat_lt
    have boundB := b.toNat_lt
    have boundC := c.toNat_lt
    intro offset
    refine decodeGroups_append ?_ (packSymbols_three a b c rfl) ih offset
    intro m member
    simp only [List.mem_cons, List.not_mem_nil, or_false] at member
    omega
  | case2 a b =>
    have boundA := a.toNat_lt
    have boundB := b.toNat_lt
    intro offset
    refine decodeGroups_last 1 ?_ (by simp) rfl (packSymbols_two a b rfl) offset
    intro m member
    simp only [List.mem_cons, List.not_mem_nil, or_false] at member
    omega
  | case3 a =>
    have boundA := a.toNat_lt
    intro offset
    refine decodeGroups_last 2 ?_ (by simp) rfl (packSymbols_one a) offset
    intro m member
    simp only [List.mem_cons, List.not_mem_nil, or_false] at member
    omega
  | case4 =>
    intro offset
    rfl

@[simp] theorem decodeBase64_encodeBase64 (bytes : Bytes) :
    decodeBase64 (encodeBase64 bytes) = .ok bytes := by
  have whole := base64Bytes_length bytes
  have notOne : ((base64Bytes bytes).length % 4 == 1) = false := by simp [whole]
  have groups := decodeGroups_base64Bytes bytes 0
  simp only [decodeBase64, encodeUtf8_encodeBase64, notOne, Bool.false_and]
  split
  · case h_1 none =>
      rw [List.getLast?_eq_none_iff.mp none] at groups
      exact groups
  · exact groups

end Base64

end SealedColumns.Text
