import Mathlib.Data.UInt
import NetworkFinality.Model.Canonical

/-!
# Digests as text

`b64url` writes six bits a character and leaves the padding off, so a text determines
its bytes, and its length theirs. Digests of different algorithms therefore have
different texts.
-/

namespace NetworkFinality

open Python

/-- The six-bit values that `b64url` writes. -/
def sextets : Bytes → List Nat
  | [] => []
  | [a] =>
      let n := a.toNat * 16
      [n / 64, n % 64]
  | [a, b] =>
      let n := (a.toNat * 256 + b.toNat) * 4
      [n / 4096, n / 64 % 64, n % 64]
  | a :: b :: c :: rest =>
      let n := (a.toNat * 256 + b.toNat) * 256 + c.toNat
      n / 262144 :: n / 4096 % 64 :: n / 64 % 64 :: n % 64 :: sextets rest

theorem sextets_lt {data : Bytes} : ∀ value ∈ sextets data, value < 64 := by
  induction data using sextets.induct with
  | case1 => simp [sextets]
  | case2 a =>
      have bound := a.toNat_lt
      simp only [sextets, List.forall_mem_cons]
      exact ⟨by omega, by omega, by simp⟩
  | case3 a b =>
      have boundA := a.toNat_lt
      have boundB := b.toNat_lt
      simp only [sextets, List.forall_mem_cons]
      exact ⟨by omega, by omega, by omega, by simp⟩
  | case4 a b c rest inductionHypothesis =>
      have boundA := a.toNat_lt
      have boundB := b.toNat_lt
      have boundC := c.toNat_lt
      simp only [sextets, List.forall_mem_cons]
      exact ⟨by omega, by omega, by omega, by omega, inductionHypothesis⟩

theorem length_sextets (data : Bytes) : (sextets data).length = (4 * data.length + 2) / 3 := by
  induction data using sextets.induct with
  | case1 => simp [sextets]
  | case2 a => simp [sextets]
  | case3 a b => simp [sextets]
  | case4 a b c rest inductionHypothesis =>
      simp only [sextets, List.length_cons, inductionHypothesis]
      omega

/-- The bytes that six-bit values stand for. -/
def octets : List Nat → Bytes
  | a :: b :: c :: d :: rest =>
      let n := ((a * 64 + b) * 64 + c) * 64 + d
      UInt8.ofNat (n / 65536) :: UInt8.ofNat (n / 256) :: UInt8.ofNat n :: octets rest
  | [a, b, c] =>
      let n := (a * 64 + b) * 64 + c
      [UInt8.ofNat (n / 1024), UInt8.ofNat (n / 4)]
  | [a, b] => [UInt8.ofNat ((a * 64 + b) / 16)]
  | _ => []

private theorem ofNat_eq {number : Nat} {byte : UInt8} (same : number % 256 = byte.toNat) :
    UInt8.ofNat number = byte := by
  rw [← UInt8.toNat_inj, UInt8.toNat_ofNat', same]

theorem octets_sextets (data : Bytes) : octets (sextets data) = data := by
  induction data using sextets.induct with
  | case1 => rfl
  | case2 a =>
      have bound := a.toNat_lt
      simp only [sextets, octets, List.cons.injEq, and_true]
      exact ofNat_eq (by omega)
  | case3 a b =>
      have boundA := a.toNat_lt
      have boundB := b.toNat_lt
      simp only [sextets, octets, List.cons.injEq, and_true]
      exact ⟨ofNat_eq (by omega), ofNat_eq (by omega)⟩
  | case4 a b c rest inductionHypothesis =>
      have boundA := a.toNat_lt
      have boundB := b.toNat_lt
      have boundC := c.toNat_lt
      simp only [sextets, octets, inductionHypothesis, List.cons.injEq, and_true]
      exact ⟨ofNat_eq (by omega), ofNat_eq (by omega), ofNat_eq (by omega)⟩

/-! ### Characters -/

/-- The value a character stands for. -/
def sextetOf (char : CodePoint) : Nat := (List.range 64).findIdx fun value => base64Char value = char

theorem sextetOf_base64Char {value : Nat} (small : value < 64) :
    sextetOf (base64Char value) = value := by
  have inverse : ∀ value < 64, sextetOf (base64Char value) = value := by decide +kernel
  exact inverse value small

theorem base64Char_ne_padding {value : Nat} (small : value < 64) :
    base64Char value ≠ .scalar '=' := by
  have distinct : ∀ value < 64, base64Char value ≠ .scalar '=' := by decide +kernel
  exact distinct value small

/-- Encoding writes the values, and then padding. -/
theorem urlsafeB64encode_eq (data : Bytes) : ∃ padding : Nat,
    urlsafeB64encode data =
      (sextets data).map base64Char ++ List.replicate padding (.scalar '=') := by
  induction data using sextets.induct with
  | case1 => exact ⟨0, rfl⟩
  | case2 a => exact ⟨2, rfl⟩
  | case3 a b => exact ⟨1, rfl⟩
  | case4 a b c rest inductionHypothesis =>
      obtain ⟨padding, encoded⟩ := inductionHypothesis
      exact ⟨padding, by simp [urlsafeB64encode, sextets, encoded]⟩

/-- Without its padding the text is the values' characters. -/
theorem b64url_eq (data : Bytes) : b64url data = (sextets data).map base64Char := by
  obtain ⟨padding, encoded⟩ := urlsafeB64encode_eq data
  rw [b64url, encoded]
  clear encoded
  induction padding with
  | zero =>
      rw [List.replicate_zero, List.append_nil, List.rdropWhile_eq_self_iff]
      intro nonempty
      obtain ⟨value, member, char⟩ := List.mem_map.mp (List.getLast_mem nonempty)
      simpa [← char] using base64Char_ne_padding (sextets_lt value member)
  | succ padding inductionHypothesis =>
      rw [List.replicate_succ', ← List.append_assoc, List.rdropWhile_concat_pos _ _ _ (by simp)]
      exact inductionHypothesis

/-- The text determines the bytes. -/
theorem b64url_injective {left right : Bytes} (same : b64url left = b64url right) :
    left = right := by
  rw [b64url_eq, b64url_eq] at same
  have values : sextets left = sextets right := by
    have decoded (data : Bytes) : ((sextets data).map base64Char).map sextetOf = sextets data := by
      rw [List.map_map, List.map_congr_left (g := id), List.map_id]
      exact fun value member => sextetOf_base64Char (sextets_lt value member)
    rw [← decoded left, same, decoded]
  rw [← octets_sextets left, values, octets_sextets]

theorem length_b64url (data : Bytes) : (b64url data).length = (4 * data.length + 2) / 3 := by
  rw [b64url_eq, List.length_map, length_sextets]

/-! ### Digests -/

variable [Hashlib]

theorem digestValue_ok {value : Value} {algorithm : HashAlgorithm} {text : Str} :
    digestValue value algorithm = .ok text ↔
      ∃ bytes, canonicalJsonBytes value = .ok bytes ∧ b64url (hashBytes bytes algorithm) = text := by
  rw [digestValue, bind_eq_ok]
  simp only [pure_eq_ok]

/-- The length of a digest's text tells the algorithm. -/
theorem length_digestValue {value : Value} {algorithm : HashAlgorithm} {text : Str}
    (digested : digestValue value algorithm = .ok text) :
    text.length = (4 * algorithm.digestSize + 2) / 3 := by
  obtain ⟨bytes, -, rfl⟩ := digestValue_ok.mp digested
  rw [length_b64url, hashBytes, Hashlib.length_digest]

/-- Digests with the same text are digests of the same algorithm. -/
theorem algorithm_of_digestValue {left right : Value} {first second : HashAlgorithm} {text : Str}
    (digested : digestValue left first = .ok text) (again : digestValue right second = .ok text) :
    first = second := by
  have lengths := (length_digestValue digested).symm.trans (length_digestValue again)
  cases first <;> cases second <;> first | rfl | simp [HashAlgorithm.digestSize] at lengths

end NetworkFinality
