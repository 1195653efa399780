import Mathlib.Data.List.Perm.Basic
import Mathlib.Order.Defs.LinearOrder
import SealedColumns.Keys.Directory
import SealedColumns.Proofs.Naming
import SealedColumns.Proofs.Vault.Files
import SealedColumns.Vault

/-!
The names in a key directory. The ids `v1`, `v2`, … are told apart and put in order by their
numbers, and no other name of the directory is the name of a key.
-/
namespace SealedColumns

open Text

namespace Text

theorem parseWord?_digits {ds : List Char} (nonempty : ds ≠ [])
    (digits : ∀ c ∈ ds, c.isDigit = true) (small : digitsValue ds < word64) :
    parseWord? ds = some (digitsValue ds) := by
  obtain ⟨c, rest, rfl⟩ := List.exists_cons_of_ne_nil nonempty
  have all : (c :: rest).all Char.isDigit = true := List.all_eq_true.mpr digits
  have noSign : ∀ others, c :: rest = '+' :: others → False := by
    intro others same
    have sign := digits c List.mem_cons_self
    rw [(List.cons.inj same).1] at sign
    contradiction
  rw [parseWord?]
  · simp only [List.isEmpty_cons, all, small, Bool.not_true, Bool.or_false, Bool.false_eq_true,
      if_false, if_true]
  · exact noSign

theorem parseWord?_lt {cs : List Char} {n : Nat} (parsed : parseWord? cs = some n) :
    n < word64 := by
  simp only [parseWord?, Option.ite_none_left_eq_some, Option.ite_none_right_eq_some,
    Option.some.injEq] at parsed
  obtain ⟨-, small, rfl⟩ := parsed
  exact small

theorem isBlank_eq_false {c : Char} (visible : 0x20 < c.toNat) (ascii : c.toNat < 0x80) :
    isBlank c = false := by
  simp only [isBlank, Bool.or_eq_false_iff, Bool.and_eq_false_iff, decide_eq_false_iff_not,
    beq_eq_false_iff_ne]
  omega

theorem trim_eq {s : String} (visible : ∀ c ∈ s.toList, isBlank c = false) : trim s = s := by
  have front : ∀ cs : List Char, (∀ c ∈ cs, isBlank c = false) → cs.dropWhile isBlank = cs := by
    intro cs all
    cases cs with
    | nil => rfl
    | cons c cs => simp [all c List.mem_cons_self]
  have back := front s.toList.reverse fun c member => visible c (List.mem_reverse.mp member)
  rw [trim, trimChars, front s.toList visible, back, List.reverse_reverse, String.ofList_toList]

end Text

namespace KeyDirectory

theorem keyId?_keyName (id : String) : keyId? (keyName id) = some id :=
  between?_eq_some.mpr rfl

theorem keyName_injective {id other : String} (same : keyName id = keyName other) : id = other := by
  have ids := congrArg keyId? same
  rw [keyId?_keyName, keyId?_keyName] at ids
  exact Option.some.inj ids

theorem keyId?_pepperName : keyId? pepperName = none := by decide

theorem keyId?_currentName : keyId? currentName = none := by decide

theorem keyName_ne {id name : String} (noKey : keyId? name = none) : keyName id ≠ name := by
  rintro rfl
  rw [keyId?_keyName] at noKey
  contradiction

theorem isName_pepperName : Path.IsName pepperName :=
  ⟨by decide, by decide, by decide⟩

theorem isName_currentName : Path.IsName currentName :=
  ⟨by decide, by decide, by decide⟩

theorem mem_of_isKeyId {id : String} (valid : isKeyId id = true) {c : Char}
    (member : c ∈ id.toList) : c.isAlphanum = true ∨ c = '-' ∨ c = '_' := by
  simp only [isKeyId, Bool.and_eq_true, List.all_eq_true] at valid
  have kind := valid.2 c member
  simpa [or_assoc] using kind

theorem isName_keyName {id : String} (valid : isKeyId id = true) : Path.IsName (keyName id) := by
  have text : (keyName id).toList = "key_".toList ++ id.toList ++ ".key".toList := by
    simp [keyName]
  constructor
  · rw [text]
    simp
  · rw [text]
    simp
  · rw [text, List.mem_append, List.mem_append]
    rintro ((front | inner) | back)
    · exact absurd front (by decide)
    · have kind := mem_of_isKeyId valid inner
      revert kind
      decide
    · exact absurd back (by decide)

theorem keyFile_eq {id : String} (valid : isKeyId id = true) : keyFile id = .ok (keyName id) := by
  rw [keyFile, if_pos valid]

section Version

/-- The id of the key with this number. -/
def versionId (n : Nat) : String := "v" ++ toString n

/-- The ids of the first keys, in the order of their numbers. -/
def versions (count : Nat) : List String := (List.range count).map fun i => versionId (i + 1)

theorem toList_versionId (n : Nat) : (versionId n).toList = 'v' :: Nat.toDigits 10 n := by
  simp [versionId]

theorem isDigit_of_mem {n : Nat} {c : Char} (member : c ∈ Nat.toDigits 10 n) : c.isDigit = true :=
  Nat.isDigit_of_mem_toDigits (by decide) (by decide) member

theorem digitsValue_toDigits (n : Nat) : digitsValue (Nat.toDigits 10 n) = n := by
  have value := Nat.ofDigitChars_ten_toDigits (n := n)
  rw [Nat.ofDigitChars_eq_foldl] at value
  simp only [Nat.mul_comm 10] at value
  exact value

theorem version?_versionId {n : Nat} (small : n < word64) : version? (versionId n) = some n := by
  have value := digitsValue_toDigits n
  have parsed := parseWord?_digits Nat.toDigits_ne_nil (fun c => isDigit_of_mem (n := n))
    (value.symm ▸ small)
  simp only [version?, toList_versionId, parsed, value]

theorem versionId_injective {m n : Nat} (same : versionId m = versionId n) : m = n := by
  have texts := congrArg String.toList same
  rw [toList_versionId, toList_versionId] at texts
  have digits := congrArg digitsValue (List.cons.inj texts).2
  rwa [digitsValue_toDigits, digitsValue_toDigits] at digits

theorem mem_versionId {n : Nat} {c : Char} (member : c ∈ (versionId n).toList) :
    c = 'v' ∨ c.isDigit = true := by
  rw [toList_versionId, List.mem_cons] at member
  exact member.imp_right isDigit_of_mem

theorem isKeyId_versionId (n : Nat) : isKeyId (versionId n) = true := by
  have nonempty : (versionId n).isEmpty = false := by
    rw [← Bool.not_eq_true, String.isEmpty_iff, ← String.toList_inj, toList_versionId]
    simp
  rw [isKeyId, nonempty]
  simp only [Bool.not_false, Bool.true_and, List.all_eq_true]
  intro c member
  obtain rfl | digit := mem_versionId member
  · rfl
  · simp [Char.isAlphanum, digit]

theorem isBlank_of_mem_versionId {n : Nat} {c : Char} (member : c ∈ (versionId n).toList) :
    isBlank c = false := by
  obtain rfl | digit := mem_versionId member
  · rfl
  · obtain ⟨low, high⟩ := Char.isDigit_iff_toNat.mp digit
    exact isBlank_eq_false (Nat.lt_of_lt_of_le (by decide) low)
      (Nat.lt_of_le_of_lt high (by decide))

theorem separator_notMem_versionId (n : Nat) : Vault.separator ∉ (versionId n).toList := by
  intro member
  obtain same | digit := mem_versionId member
  · exact absurd same (by decide)
  · exact absurd digit (by decide)

theorem trim_versionId (n : Nat) : trim (versionId n) = versionId n :=
  trim_eq fun _ => isBlank_of_mem_versionId

theorem isBlankText_versionId (n : Nat) : isBlankText (versionId n) = false := by
  have first : 'v' ∈ (versionId n).toList := by simp [toList_versionId]
  rw [← Bool.not_eq_true, isBlankText, List.all_eq_true]
  intro all
  have blank := all 'v' first
  rw [isBlank_of_mem_versionId first] at blank
  contradiction

theorem mem_versions {count : Nat} {id : String} :
    id ∈ versions count ↔ ∃ n, 1 ≤ n ∧ n ≤ count ∧ versionId n = id := by
  simp only [versions, List.mem_map, List.mem_range]
  constructor
  · rintro ⟨i, inside, rfl⟩
    exact ⟨i + 1, by omega, inside, rfl⟩
  · rintro ⟨n, positive, inside, rfl⟩
    exact ⟨n - 1, by omega, by rw [Nat.sub_add_cancel positive]⟩

theorem versions_succ (count : Nat) :
    versions (count + 1) = versions count ++ [versionId (count + 1)] := by
  rw [versions, List.range_succ, List.map_append]
  rfl

theorem filterMap_version?_versions {count : Nat} (small : count < word64) :
    (versions count).filterMap version? = (List.range count).map (· + 1) := by
  induction count with
  | zero => rfl
  | succ count ih =>
    have fits := version?_versionId small
    rw [versions_succ, List.filterMap_append, ih (by omega), List.range_succ, List.map_append]
    simp [fits]

theorem foldl_max_range (count : Nat) : ((List.range count).map (· + 1)).foldl max 0 = count := by
  induction count with
  | zero => rfl
  | succ count ih =>
    rw [List.range_succ, List.map_append, List.foldl_append, ih]
    simp

theorem foldl_max_le_iff {ns : List Nat} {start bound : Nat} :
    ns.foldl max start ≤ bound ↔ start ≤ bound ∧ ∀ n ∈ ns, n ≤ bound := by
  induction ns generalizing start with
  | nil => simp
  | cons n ns ih => simp only [List.foldl_cons, ih, Nat.max_le, List.forall_mem_cons, and_assoc]

/-- The next number does not depend on the order in which the ids are found. -/
theorem nextVersion_perm {ids others : List String} (perm : ids.Perm others) :
    nextVersion ids = nextVersion others := by
  rw [nextVersion, nextVersion, (perm.filterMap version?).foldl_op_eq]

theorem nextVersion_of_perm {ids : List String} {count : Nat} (perm : ids.Perm (versions count))
    (small : count + 1 < word64) : nextVersion ids = count + 1 := by
  rw [nextVersion_perm perm, nextVersion, filterMap_version?_versions (by omega), foldl_max_range,
    Nat.mod_eq_of_lt small]

theorem version?_lt {id : String} {n : Nat} (numbered : version? id = some n) : n < word64 := by
  unfold version? at numbered
  split at numbered
  · exact parseWord?_lt numbered
  · contradiction

theorem nextVersion_lt (ids : List String) : nextVersion ids < word64 :=
  Nat.mod_lt _ (by decide)

/-- The next number is above all others while the last number of all is not among them. -/
theorem lt_nextVersion {ids : List String}
    (unused : ∀ id ∈ ids, version? id ≠ some (word64 - 1)) {id : String} (member : id ∈ ids)
    {n : Nat} (numbered : version? id = some n) : n < nextVersion ids := by
  have bound : (ids.filterMap version?).foldl max 0 ≤ word64 - 2 := by
    refine foldl_max_le_iff.mpr ⟨Nat.zero_le _, fun m found => ?_⟩
    obtain ⟨other, also, there⟩ := List.mem_filterMap.mp found
    have small := version?_lt there
    have last : m ≠ word64 - 1 := fun same => unused other also (same ▸ there)
    omega
  have below := (foldl_max_le_iff.mp (Nat.le_refl ((ids.filterMap version?).foldl max 0))).2 n
    (List.mem_filterMap.mpr ⟨id, member, numbered⟩)
  have size : word64 = 2 ^ 64 := rfl
  rw [nextVersion, Nat.mod_eq_of_lt (by omega)]
  omega

/-- After the last number of all comes the first. -/
theorem nextVersion_eq_zero {ids : List String} {id : String} (member : id ∈ ids)
    (last : version? id = some (word64 - 1)) : nextVersion ids = 0 := by
  have above := (foldl_max_le_iff.mp (Nat.le_refl ((ids.filterMap version?).foldl max 0))).2 _
    (List.mem_filterMap.mpr ⟨id, member, last⟩)
  have bound : (ids.filterMap version?).foldl max 0 ≤ word64 - 1 := by
    refine foldl_max_le_iff.mpr ⟨Nat.zero_le _, fun m found => ?_⟩
    obtain ⟨other, -, there⟩ := List.mem_filterMap.mp found
    have small := version?_lt there
    omega
  have largest := Nat.le_antisymm bound above
  rw [nextVersion, largest]
  decide

section Order

/-- Ids without a number have rank zero. -/
def rank (id : String) : Nat :=
  match version? id with
  | none => 0
  | some n => n + 1

theorem precedes_iff {a b : String} :
    precedes a b = true ↔ rank a < rank b ∨ rank a = rank b ∧ a ≤ b := by
  rw [precedes, rank, rank]
  cases version? a <;> cases version? b <;> simp

theorem precedes_trans (a b c : String) (first : precedes a b = true)
    (second : precedes b c = true) : precedes a c = true := by
  rw [precedes_iff] at *
  obtain lower | ⟨same, below⟩ := first
  · left
    omega
  · obtain higher | ⟨equal, under⟩ := second
    · left
      omega
    · exact .inr ⟨same.trans equal, String.le_trans below under⟩

theorem precedes_total (a b : String) : (precedes a b || precedes b a) = true := by
  rw [Bool.or_eq_true, precedes_iff, precedes_iff]
  rcases Nat.lt_trichotomy (rank a) (rank b) with less | same | more
  · exact .inl (.inl less)
  · rcases String.le_total a b with below | above
    · exact .inl (.inr ⟨same, below⟩)
    · exact .inr (.inr ⟨same.symm, above⟩)
  · exact .inr (.inl more)

theorem rank_versionId {n : Nat} (small : n < word64) : rank (versionId n) = n + 1 := by
  rw [rank, version?_versionId small]

theorem precedes_versionId {m n : Nat} (less : m < n) (small : n < word64) :
    precedes (versionId m) (versionId n) = true := by
  rw [precedes_iff, rank_versionId small, rank_versionId (by omega)]
  left
  omega

theorem pairwise_versions {count : Nat} (small : count < word64) :
    (versions count).Pairwise fun a b => precedes a b = true := by
  rw [versions, List.pairwise_map]
  refine List.pairwise_lt_range.imp_of_mem ?_
  intro i j _ member less
  rw [List.mem_range] at member
  exact precedes_versionId (by omega) (by omega)

/-- The order of the versions is that of their numbers, whatever the order they are found in. -/
theorem mergeSort_of_perm {ids : List String} {count : Nat} (perm : ids.Perm (versions count))
    (small : count < word64) : ids.mergeSort precedes = versions count := by
  have sorted := List.pairwise_mergeSort precedes_trans precedes_total ids
  have same := (ids.mergeSort_perm precedes).trans perm
  refine List.Perm.eq_of_pairwise ?_ sorted (pairwise_versions small) same
  intro a b left right up down
  obtain ⟨m, -, inside, rfl⟩ := mem_versions.mp (same.mem_iff.mp left)
  obtain ⟨n, -, within, rfl⟩ := mem_versions.mp right
  rw [precedes_iff, rank_versionId (by omega), rank_versionId (by omega)] at up down
  have equal : m = n := by omega
  rw [equal]

end Order

end Version

end KeyDirectory

end SealedColumns
