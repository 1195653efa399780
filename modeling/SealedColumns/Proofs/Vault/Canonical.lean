import SealedColumns.Proofs.Vault.Coding

/-!
Decoding accepts one form only: bytes that decode as UTF-8 are the encoding of their text, and a
text that decodes as Base64 is the encoding of its bytes.
-/
namespace SealedColumns.Text

section Utf8

/-- What a first byte says about itself and about the byte behind it. -/
theorem leadBounds_eq_some {lead low high width : Nat}
    (bounds : leadBounds lead = some (low, high, width)) :
    (width = 1 ∧ lead ≤ 0x7F) ∨
    (width = 2 ∧ 0xC2 ≤ lead ∧ lead ≤ 0xDF ∧ low = 0x80 ∧ high = 0xBF) ∨
    (width = 3 ∧ 0xE0 ≤ lead ∧ lead ≤ 0xEF ∧ 0x80 ≤ low ∧ high ≤ 0xBF ∧
      (lead = 0xE0 → 0xA0 ≤ low) ∧ (lead = 0xED → high ≤ 0x9F)) ∨
    (width = 4 ∧ 0xF0 ≤ lead ∧ lead ≤ 0xF4 ∧ 0x80 ≤ low ∧ high ≤ 0xBF ∧
      (lead = 0xF0 → 0x90 ≤ low) ∧ (lead = 0xF4 → high ≤ 0x8F)) := by
  simp only [leadBounds, Bool.and_eq_true, decide_eq_true_eq, beq_iff_eq] at bounds
  repeat' split at bounds
  all_goals
    simp only [Option.some.injEq, Prod.mk.injEq, reduceCtorEq] at bounds
    try omega

theorem decodeTail_eq_ok {index taken owed code low high code' : Nat} {bytes rest : Bytes}
    (decoded : decodeTail index taken (owed + 1) code low high bytes = .ok (code', rest)) :
    ∃ b more, bytes = b :: more ∧ low ≤ b.toNat ∧ b.toNat ≤ high ∧
      decodeTail index (taken + 1) owed (code * 64 + b.toNat % 64) 0x80 0xBF more =
        .ok (code', rest) := by
  cases bytes with
  | nil => cases decoded
  | cons b more =>
    simp only [decodeTail, Bool.and_eq_true, decide_eq_true_eq] at decoded
    split at decoded
    · rename_i inside
      exact ⟨b, more, rfl, inside.1, inside.2, decoded⟩
    · cases decoded

theorem decodeTail_zero {index taken code low high code' : Nat} {bytes rest : Bytes}
    (decoded : decodeTail index taken 0 code low high bytes = .ok (code', rest)) :
    code' = code ∧ bytes = rest := by
  cases decoded
  exact ⟨rfl, rfl⟩

theorem decodeChar_eq_ok {index width : Nat} {lead : UInt8} {bytes rest : Bytes} {c : Char}
    (decoded : decodeChar index lead bytes = .ok (c, width, rest)) :
    ∃ low high code, leadBounds lead.toNat = some (low, high, width) ∧ c = Char.ofNat code ∧
      decodeTail index 1 (width - 1)
        (if width == 1 then lead.toNat else lead.toNat % Nat.pow 2 (7 - width)) low high bytes =
          .ok (code, rest) := by
  unfold decodeChar at decoded
  split at decoded
  · cases decoded
  · rename_i low high size bounds
    rcases tail : decodeTail index 1 (size - 1)
      (if size == 1 then lead.toNat else lead.toNat % Nat.pow 2 (7 - size)) low high bytes
      with e | ⟨code, left⟩
    · simp only [tail, bind, Except.bind] at decoded
      cases decoded
    · simp only [tail, bind, Except.bind, pure, Except.pure, Except.ok.injEq,
        Prod.mk.injEq] at decoded
      obtain ⟨rfl, rfl, rfl⟩ := decoded
      exact ⟨low, high, code, bounds, rfl, tail⟩

theorem utf8EncodeChar_ofNat {n : Nat} (valid : n < 0xD800 ∨ 0xDFFF < n ∧ n < 0x110000) :
    String.utf8EncodeChar (Char.ofNat n) =
      if n ≤ 0x7F then [UInt8.ofNat n]
      else if n ≤ 0x7FF then [UInt8.ofNat (n / 64 % 32 + 192), UInt8.ofNat (n % 64 + 128)]
      else if n ≤ 0xFFFF then
        [UInt8.ofNat (n / 4096 % 16 + 224), UInt8.ofNat (n / 64 % 64 + 128),
          UInt8.ofNat (n % 64 + 128)]
      else
        [UInt8.ofNat (n / 262144 % 8 + 240), UInt8.ofNat (n / 4096 % 64 + 128),
          UInt8.ofNat (n / 64 % 64 + 128), UInt8.ofNat (n % 64 + 128)] := by
  have code : (Char.ofNat n).val.toNat = n := by
    rw [Char.ofNat, dif_pos valid]
    rfl
  simp only [String.utf8EncodeChar, code]

/-- The bytes of a character that was read are the bytes it is written as. -/
theorem utf8EncodeChar_of_decodeChar {index width : Nat} {lead : UInt8} {bytes rest : Bytes}
    {c : Char} (decoded : decodeChar index lead bytes = .ok (c, width, rest)) :
    lead :: bytes = String.utf8EncodeChar c ++ rest := by
  obtain ⟨low, high, code, bounds, rfl, tail⟩ := decodeChar_eq_ok decoded
  obtain ⟨rfl, one⟩ | ⟨rfl, above, below, rfl, rfl⟩ |
    ⟨rfl, above, below, least, most, first, last⟩ |
    ⟨rfl, above, below, least, most, first, last⟩ := leadBounds_eq_some bounds
  · obtain ⟨rfl, rfl⟩ := decodeTail_zero tail
    rw [utf8EncodeChar_ofNat (by simp; omega)]
    simp [one]
  · obtain ⟨b, _, rfl, atLeast, atMost, tail⟩ := decodeTail_eq_ok tail
    obtain ⟨rfl, rfl⟩ := decodeTail_zero tail
    simp only [Nat.reduceBEq, Bool.false_eq_true, if_false, Nat.reduceSub, Nat.pow_eq,
      Nat.reducePow]
    generalize number : lead.toNat % 32 * 64 + b.toNat % 64 = n
    rw [utf8EncodeChar_ofNat (by omega), if_neg (by omega), if_pos (by omega),
      ofNat_eq (b := lead) (by omega), ofNat_eq (b := b) (by omega)]
    rfl
  · obtain ⟨b, _, rfl, atLeast, atMost, tail⟩ := decodeTail_eq_ok tail
    obtain ⟨b', _, rfl, atLeast', atMost', tail⟩ := decodeTail_eq_ok tail
    obtain ⟨rfl, rfl⟩ := decodeTail_zero tail
    simp only [Nat.reduceBEq, Bool.false_eq_true, if_false, Nat.reduceSub, Nat.pow_eq,
      Nat.reducePow]
    generalize number : (lead.toNat % 16 * 64 + b.toNat % 64) * 64 + b'.toNat % 64 = n
    rw [utf8EncodeChar_ofNat (by omega), if_neg (by omega), if_neg (by omega),
      if_pos (by omega), ofNat_eq (b := lead) (by omega), ofNat_eq (b := b) (by omega),
      ofNat_eq (b := b') (by omega)]
    rfl
  · obtain ⟨b, _, rfl, atLeast, atMost, tail⟩ := decodeTail_eq_ok tail
    obtain ⟨b', _, rfl, atLeast', atMost', tail⟩ := decodeTail_eq_ok tail
    obtain ⟨b'', _, rfl, atLeast'', atMost'', tail⟩ := decodeTail_eq_ok tail
    obtain ⟨rfl, rfl⟩ := decodeTail_zero tail
    simp only [Nat.reduceBEq, Bool.false_eq_true, if_false, Nat.reduceSub, Nat.pow_eq,
      Nat.reducePow]
    generalize number : ((lead.toNat % 8 * 64 + b.toNat % 64) * 64 + b'.toNat % 64) * 64 +
      b''.toNat % 64 = n
    rw [utf8EncodeChar_ofNat (by omega), if_neg (by omega), if_neg (by omega), if_neg (by omega),
      ofNat_eq (b := lead) (by omega), ofNat_eq (b := b) (by omega), ofNat_eq (b := b') (by omega),
      ofNat_eq (b := b'') (by omega)]
    rfl

theorem decodeUtf8Chars_eq_ok {bytes : Bytes} {cs : List Char} {fuel index : Nat}
    (decoded : decodeUtf8Chars fuel index bytes = .ok cs) :
    bytes = cs.flatMap String.utf8EncodeChar := by
  induction fuel generalizing index bytes cs with
  | zero =>
    cases bytes with
    | nil =>
      cases decoded
      rfl
    | cons b bytes => cases decoded
  | succ fuel ih =>
    cases bytes with
    | nil =>
      cases decoded
      rfl
    | cons lead bytes =>
      rcases first : decodeChar index lead bytes with e | ⟨c, width, rest⟩
      · simp only [decodeUtf8Chars, first, bind, Except.bind] at decoded
        cases decoded
      · rcases others : decodeUtf8Chars fuel (index + width) rest with e | more
        · simp only [decodeUtf8Chars, first, others, bind, Except.bind] at decoded
          cases decoded
        · simp only [decodeUtf8Chars, first, others, bind, Except.bind, pure, Except.pure,
            Except.ok.injEq] at decoded
          subst decoded
          rw [utf8EncodeChar_of_decodeChar first, List.flatMap_cons, ih others]

theorem decodeUtf8_eq_ok_iff {bytes : Bytes} {s : String} :
    decodeUtf8 bytes = .ok s ↔ bytes = encodeUtf8 s := by
  constructor
  · intro decoded
    rcases chars : decodeUtf8Chars bytes.length 0 bytes with e | cs
    · rw [decodeUtf8, chars] at decoded
      cases decoded
    · rw [decodeUtf8, chars] at decoded
      cases decoded
      rw [encodeUtf8, String.toList_ofList]
      exact decodeUtf8Chars_eq_ok chars
  · rintro rfl
    exact decodeUtf8_encodeUtf8 s

theorem encodeUtf8_injective {s t : String} (same : encodeUtf8 s = encodeUtf8 t) : s = t := by
  have decoded := decodeUtf8_encodeUtf8 s
  rw [same, decodeUtf8_encodeUtf8] at decoded
  exact (Except.ok.inj decoded).symm

end Utf8

section Base64

theorem base64Value?_eq_some {b : UInt8} {n : Nat} (value : base64Value? b = some n) :
    n < 64 ∧ b = symbolByte n := by
  have all : ∀ i : Fin 256, ∀ n ∈ base64Value? (UInt8.ofNat i),
      n < 64 ∧ UInt8.ofNat i = symbolByte n := by decide +kernel
  have here := all ⟨b.toNat, b.toNat_lt⟩ n
  rw [UInt8.ofNat_toNat] at here
  exact here value

theorem symbolValues_eq_ok {offset : Nat} {bytes : Bytes} {values : List Nat}
    (read : symbolValues offset bytes = .ok values) :
    bytes = values.map symbolByte ∧ ∀ n ∈ values, n < 64 := by
  induction bytes generalizing offset values with
  | nil =>
    cases read
    exact ⟨rfl, fun _ member => absurd member List.not_mem_nil⟩
  | cons b bytes ih =>
    unfold symbolValues at read
    split at read
    · cases read
    · rename_i v value
      rcases others : symbolValues (offset + 1) bytes with e | vs
      · simp only [others, bind, Except.bind] at read
        cases read
      · simp only [others, bind, Except.bind, pure, Except.pure, Except.ok.injEq] at read
        subst read
        obtain ⟨small, symbol⟩ := base64Value?_eq_some value
        obtain ⟨rest, bounded⟩ := ih others
        rw [symbol, rest]
        exact ⟨rfl, List.forall_mem_cons.mpr ⟨small, bounded⟩⟩

theorem packSymbols_four {a b c d : Nat} {bytes : Bytes} (small : ∀ n ∈ [a, b, c, d], n < 64)
    (packs : packSymbols [a, b, c, d] = some bytes) (more : Bytes) :
    base64Bytes (bytes ++ more) = [a, b, c, d].map symbolByte ++ base64Bytes more := by
  simp only [List.forall_mem_cons, List.not_mem_nil, false_implies, implies_true, and_true] at small
  obtain ⟨smallA, smallB, smallC, smallD⟩ := small
  simp only [packSymbols, Option.some.injEq] at packs
  subst packs
  generalize number : ((a * 64 + b) * 64 + c) * 64 + d = n
  have parts : (UInt8.ofNat (n / 65536)).toNat * 65536 + (UInt8.ofNat (n / 256 % 256)).toNat * 256 +
      (UInt8.ofNat (n % 256)).toNat = n := by
    rw [toNat_ofNat_small (by omega), toNat_ofNat_small (by omega), toNat_ofNat_small (by omega)]
    omega
  have symbols : n / 262144 = a ∧ n / 4096 % 64 = b ∧ n / 64 % 64 = c ∧ n % 64 = d := by omega
  simp only [base64Bytes, List.cons_append, List.nil_append, encodeBase64Chars, parts, symbols,
    List.map_cons, List.map_nil]
  rfl

/-- What a last group is that decodes: symbols and filling, four together. -/
theorem decodeLastGroup_eq_ok {offset : Nat} {group bytes : Bytes}
    (decoded : decodeLastGroup offset group = .ok bytes) :
    ∃ values filling, group = groupBytes values filling ∧ (∀ n ∈ values, n < 64) ∧
      2 ≤ values.length ∧ group.length % 4 = 0 ∧ packSymbols values = some bytes := by
  have parts := List.takeWhile_append_dropWhile (p := (· != padding)) (l := group)
  unfold decodeLastGroup at decoded
  generalize group.takeWhile (· != padding) = symbols at parts decoded
  generalize group.dropWhile (· != padding) = marks at parts decoded
  rcases read : symbolValues offset symbols with cause | values
  · simp only [read, bind, Except.bind] at decoded
    split at decoded <;> cases decoded
  · obtain ⟨rfl, small⟩ := symbolValues_eq_ok read
    simp only [read, bind, Except.bind, pure, Except.pure] at decoded
    split at decoded
    · cases decoded
    split at decoded
    · cases decoded
    rename_i filled
    split at decoded
    · cases decoded
    rename_i enough
    split at decoded
    · cases decoded
    rename_i whole
    split at decoded
    · rename_i packed packs
      cases decoded
      refine ⟨values, marks.length, ?_, small, by omega, by simpa using whole, packs⟩
      have marksOnly : marks = List.replicate marks.length padding := by
        rw [List.eq_replicate_iff]
        refine ⟨rfl, fun b member => ?_⟩
        simp only [List.any_eq_true, bne_iff_ne, not_exists, not_and, Decidable.not_not] at filled
        exact filled b member
      rw [groupBytes, ← marksOnly, parts]
    · cases decoded

theorem base64Bytes_of_packSymbols {values : List Nat} {filling : Nat} {bytes : Bytes}
    (small : ∀ n ∈ values, n < 64) (two : 2 ≤ values.length)
    (whole : values.length + filling = 4) (packs : packSymbols values = some bytes) :
    groupBytes values filling = base64Bytes bytes := by
  match values, two, whole with
  | [a, b], _, whole =>
    obtain rfl : filling = 2 := by
      simp only [List.length_cons, List.length_nil] at whole
      omega
    simp only [List.forall_mem_cons, List.not_mem_nil, false_implies, implies_true,
      and_true] at small
    simp only [packSymbols, beq_iff_eq] at packs
    split at packs
    · rename_i clean
      cases packs
      have value : (UInt8.ofNat ((a * 64 + b) / 16)).toNat = (a * 64 + b) / 16 :=
        toNat_ofNat_small (by omega)
      have symbols : (a * 64 + b) / 16 / 4 = a ∧ (a * 64 + b) / 16 % 4 * 16 = b := by omega
      simp only [base64Bytes, encodeBase64Chars, value, symbols]
      rfl
    · cases packs
  | [a, b, c], _, whole =>
    obtain rfl : filling = 1 := by
      simp only [List.length_cons, List.length_nil] at whole
      omega
    simp only [List.forall_mem_cons, List.not_mem_nil, false_implies, implies_true,
      and_true] at small
    simp only [packSymbols, beq_iff_eq] at packs
    split at packs
    · rename_i clean
      cases packs
      generalize number : (a * 64 + b) * 64 + c = n at clean
      have value : (UInt8.ofNat (n / 1024)).toNat * 256 + (UInt8.ofNat (n / 4 % 256)).toNat =
          n / 4 := by
        rw [toNat_ofNat_small (by omega), toNat_ofNat_small (by omega)]
        omega
      have symbols : n / 4 / 1024 = a ∧ n / 4 / 16 % 64 = b ∧ n / 4 % 16 * 4 = c := by omega
      simp only [base64Bytes, encodeBase64Chars, value, symbols]
      rfl
    · cases packs
  | [a, b, c, d], _, whole =>
    obtain rfl : filling = 0 := by
      simp only [List.length_cons, List.length_nil] at whole
      omega
    have four := packSymbols_four small packs []
    rw [List.append_nil] at four
    rw [four, groupBytes]
    rfl
  | _ :: _ :: _ :: _ :: _ :: _, _, whole =>
    simp only [List.length_cons] at whole
    omega

theorem base64Bytes_of_decodeLastGroup {offset : Nat} {group bytes : Bytes}
    (few : group.length ≤ 4) (decoded : decodeLastGroup offset group = .ok bytes) :
    group = base64Bytes bytes := by
  obtain ⟨values, filling, rfl, small, two, whole, packs⟩ := decodeLastGroup_eq_ok decoded
  simp only [groupBytes, List.length_append, List.length_map, List.length_replicate] at few whole
  exact base64Bytes_of_packSymbols small two (by omega) packs

theorem base64Bytes_of_decodeGroups {offset : Nat} {group bytes : Bytes}
    (decoded : decodeGroups offset group = .ok bytes) : group = base64Bytes bytes := by
  fun_induction decodeGroups offset group generalizing bytes with
  | case1 offset a b c d e rest ih =>
    rcases symbols : symbolValues offset [a, b, c, d] with cause | values
    · simp only [symbols, bind, Except.bind] at decoded
      cases decoded
    · rcases others : decodeGroups (offset + 4) (e :: rest) with cause | more
      · simp only [symbols, others, bind, Except.bind] at decoded
        cases decoded
      · simp only [symbols, others, bind, Except.bind, pure, Except.pure,
          Except.ok.injEq] at decoded
        subst decoded
        obtain ⟨read, small⟩ := symbolValues_eq_ok symbols
        obtain ⟨va, vb, vc, vd, rfl⟩ : ∃ va vb vc vd, values = [va, vb, vc, vd] := by
          have length : values.length = 4 := by
            rw [← List.length_map (f := symbolByte), ← read]
            rfl
          match values, length with
          | [va, vb, vc, vd], _ => exact ⟨va, vb, vc, vd, rfl⟩
        have packs : packSymbols [va, vb, vc, vd] = some ((packSymbols [va, vb, vc, vd]).getD []) :=
          rfl
        rw [packSymbols_four small packs, ← ih others, ← read]
        rfl
  | case2 =>
    cases decoded
    rfl
  | case3 offset group notLong =>
    refine base64Bytes_of_decodeLastGroup ?_ decoded
    match group, notLong with
    | [], _ | [_], _ | [_, _], _ | [_, _, _], _ | [_, _, _, _], _ => simp
    | a :: b :: c :: d :: e :: rest, notLong => exact absurd rfl (notLong a b c d e rest)

theorem decodeBase64_eq_ok_iff {text : String} {bytes : Bytes} :
    decodeBase64 text = .ok bytes ↔ text = encodeBase64 bytes := by
  constructor
  · intro decoded
    apply encodeUtf8_injective
    rw [encodeUtf8_encodeBase64]
    simp only [decodeBase64] at decoded
    split at decoded
    · rename_i none
      cases decoded
      exact List.getLast?_eq_none_iff.mp none
    · split at decoded
      · cases decoded
      · exact base64Bytes_of_decodeGroups decoded
  · rintro rfl
    exact decodeBase64_encodeBase64 bytes

end Base64

end SealedColumns.Text
