import Mathlib.Algebra.Order.Floor.Div
import NetworkFinality.Spec.DigestText

/-!
# Unpadded base64

Decoding is the inverse of `b64url`: the padding that the decoder adds is computed from
the length of the text, and this is the padding that `b64url` took off.
-/

namespace NetworkFinality

open Python

/-- A letter, a digit, `-` or `_`. -/
def UrlSafe (char : CodePoint) : Prop :=
  ∃ letter : Char, char = .scalar letter ∧
    (letter.isAlphanum = true ∨ letter = '-' ∨ letter = '_')

/-! ### Characters -/

/-- The value the decoder gives to a character, in either spelling of the alphabet. -/
def letterValue (char : CodePoint) : Option Nat :=
  tableA2bBase64 (urlsafeDecodeTranslation char)

@[simp] theorem letterValue_base64Char {value : Nat} (small : value < 64) :
    letterValue (base64Char value) = some value := by
  have inverse : ∀ value < 64, letterValue (base64Char value) = some value := by decide +kernel
  exact inverse value small

theorem urlsafeDecodeTranslation_eq_padding {char : CodePoint} :
    urlsafeDecodeTranslation char = .scalar '=' ↔ char = .scalar '=' := by
  unfold urlsafeDecodeTranslation
  split
  · rename_i minus
    simp [minus]
  · split
    · rename_i underscore
      simp [underscore]
    · exact Iff.rfl

theorem letterValue_padding : letterValue (.scalar '=') = none := by decide

theorem urlSafe_base64Char {value : Nat} (small : value < 64) : UrlSafe (base64Char value) := by
  refine ⟨_, rfl, ?_⟩
  revert value
  decide +kernel

theorem ascii_base64Char {value : Nat} (small : value < 64) : (base64Char value).code < 128 := by
  have inside : ∀ value < 64, (base64Char value).code < 128 := by decide +kernel
  exact inside value small

/-! ### The loop on letters and pads -/

/-- What the loop does with a letter at each position of a group. -/
theorem a2bBase64_letter {char : CodePoint} {value : Nat} (letter : letterValue char = some value)
    (rest : Str) (leftchar pads : Nat) :
    a2bBase64 (urlsafeDecodeTranslation char :: rest) 0 leftchar pads =
        a2bBase64 rest 1 value 0 ∧
      a2bBase64 (urlsafeDecodeTranslation char :: rest) 1 leftchar pads =
        (UInt8.ofNat (leftchar * 4 + value / 16) :: ·) <$> a2bBase64 rest 2 (value % 16) 0 ∧
      a2bBase64 (urlsafeDecodeTranslation char :: rest) 2 leftchar pads =
        (UInt8.ofNat (leftchar * 16 + value / 4) :: ·) <$> a2bBase64 rest 3 (value % 4) 0 ∧
      a2bBase64 (urlsafeDecodeTranslation char :: rest) 3 leftchar pads =
        (UInt8.ofNat (leftchar * 64 + value) :: ·) <$> a2bBase64 rest 0 0 0 := by
  have noPad : urlsafeDecodeTranslation char ≠ .scalar '=' := by
    intro pad
    rw [urlsafeDecodeTranslation_eq_padding.mp pad, letterValue_padding] at letter
    cases letter
  have known : tableA2bBase64 (urlsafeDecodeTranslation char) = some value := letter
  simp only [a2bBase64, if_neg noPad, known]
  exact ⟨trivial, rfl, rfl, rfl⟩

/-! ### What the decoder reads -/

/-- The values of the letters of a text. Other characters carry nothing. -/
def letters (text : Str) : List Nat := text.filterMap letterValue

@[simp] theorem letters_nil : letters [] = [] := rfl

@[simp] theorem letters_cons (char : CodePoint) (text : Str) :
    letters (char :: text) = (letterValue char).toList ++ letters text := by
  cases value : letterValue char <;> simp [letters, value]

@[simp] theorem letters_append (first second : Str) :
    letters (first ++ second) = letters first ++ letters second := List.filterMap_append

/-- The pads after the last letter of a text. -/
def lastPads (text : Str) : Nat :=
  (text.rtakeWhile fun char => (letterValue char).isNone).count (.scalar '=')

theorem lastPads_letter {char : CodePoint} (letter : letterValue char ≠ none) (text : Str) :
    lastPads (text ++ [char]) = 0 := by
  have notNone : ¬ (letterValue char).isNone = true := by simpa using letter
  rw [lastPads, @List.rtakeWhile_concat_neg _ (fun char => (letterValue char).isNone) text char
    notNone, List.count_nil]

theorem lastPads_other {char : CodePoint} (other : letterValue char = none) (text : Str) :
    lastPads (text ++ [char]) = lastPads text + if char = .scalar '=' then 1 else 0 := by
  have isNone : (letterValue char).isNone = true := by rw [other, Option.isNone_none]
  rw [lastPads, @List.rtakeWhile_concat_pos _ (fun char => (letterValue char).isNone) text char
    isNone, List.count_append, List.count_singleton, lastPads]
  simp only [beq_iff_eq]

/-- A pad after this text completes a group: three letters of it are there, or two
letters and an earlier pad. -/
def Completes (seen : Str) : Prop :=
  (letters seen).length % 4 = 3 ∨ (letters seen).length % 4 = 2 ∧ 0 < lastPads seen

/-- Behind `seen`, the decoder reads these values from `text`: those before the first
pad that completes a group, or all of them when they end with a group. -/
def Reads (seen text : Str) (values : List Nat) : Prop :=
  (∃ before rest, text = before ++ .scalar '=' :: rest ∧ Completes (seen ++ before) ∧
      (∀ shorter after, before = shorter ++ .scalar '=' :: after → ¬ Completes (seen ++ shorter)) ∧
      letters before = values) ∨
    (∀ shorter after, text = shorter ++ .scalar '=' :: after → ¬ Completes (seen ++ shorter)) ∧
      (letters (seen ++ text)).length % 4 = 0 ∧ letters text = values

theorem reads_nil {seen : Str} {values : List Nat} :
    Reads seen [] values ↔ (letters seen).length % 4 = 0 ∧ values = [] := by
  constructor
  · rintro (⟨before, rest, split, -⟩ | ⟨-, full, rfl⟩)
    · exact absurd split.symm (by simp)
    · exact ⟨by simpa using full, rfl⟩
  · rintro ⟨full, rfl⟩
    exact .inr ⟨by simp, by simpa using full, rfl⟩

/-- Nothing is read behind the pad that completes a group. -/
theorem reads_pad {seen rest : Str} {values : List Nat} (complete : Completes seen) :
    Reads seen (.scalar '=' :: rest) values ↔ values = [] := by
  constructor
  · rintro (⟨before, after, split, -, first, rfl⟩ | ⟨first, -⟩)
    · cases before with
      | nil => rfl
      | cons char before =>
          obtain ⟨rfl, -⟩ := List.cons.inj split
          exact absurd complete (by simpa using first [] before rfl)
    · exact absurd complete (by simpa using first [] rest rfl)
  · rintro rfl
    exact .inl ⟨[], rest, rfl, by simpa using complete, by simp, rfl⟩

/-- Any other character is read by itself. -/
theorem reads_cons {seen rest : Str} {char : CodePoint} {values : List Nat}
    (incomplete : char = .scalar '=' → ¬ Completes seen) :
    Reads seen (char :: rest) values ↔
      ∃ tail, Reads (seen ++ [char]) rest tail ∧ (letterValue char).toList ++ tail = values := by
  -- The first pad that completes a group is behind this character.
  have first {text : Str} :
      (∀ shorter after, char :: text = shorter ++ .scalar '=' :: after →
          ¬ Completes (seen ++ shorter)) ↔
        ∀ shorter after, text = shorter ++ .scalar '=' :: after →
          ¬ Completes (seen ++ [char] ++ shorter) := by
    constructor
    · rintro none shorter after rfl
      simpa using none (char :: shorter) after rfl
    · intro none shorter after split
      cases shorter with
      | nil =>
          obtain ⟨rfl, -⟩ := List.cons.inj split
          simpa using incomplete rfl
      | cons head shorter =>
          obtain ⟨rfl, behind⟩ := List.cons.inj split
          simpa using none shorter after behind
  constructor
  · rintro (⟨before, after, split, complete, none, rfl⟩ | ⟨none, full, rfl⟩)
    · cases before with
      | nil =>
          obtain ⟨rfl, -⟩ := List.cons.inj split
          exact absurd (by simpa using complete) (incomplete rfl)
      | cons head before =>
          obtain ⟨rfl, rfl⟩ := List.cons.inj split
          exact ⟨letters before,
            .inl ⟨before, after, rfl, by simpa using complete, first.mp none, rfl⟩, by simp⟩
    · exact ⟨letters rest, .inr ⟨first.mp none, by simpa using full, rfl⟩, by simp⟩
  · rintro ⟨tail, ⟨before, after, rfl, complete, none, rfl⟩ | ⟨none, full, rfl⟩, rfl⟩
    · exact .inl ⟨char :: before, after, rfl, by simpa using complete, first.mpr none, by simp⟩
    · exact .inr ⟨first.mpr none, by simpa using full, by simp⟩

/-! ### What the decoder writes -/

/-- The bytes that further values add behind `quadPos` values of a group, of whose last
one the bits `leftchar` are not yet written. -/
def octetsFrom : Nat → Nat → List Nat → Bytes
  | _, _, [] => []
  | 0, _, value :: rest => octetsFrom 1 value rest
  | 1, leftchar, value :: rest =>
      UInt8.ofNat (leftchar * 4 + value / 16) :: octetsFrom 2 (value % 16) rest
  | 2, leftchar, value :: rest =>
      UInt8.ofNat (leftchar * 16 + value / 4) :: octetsFrom 3 (value % 4) rest
  | _, leftchar, value :: rest => UInt8.ofNat (leftchar * 64 + value) :: octetsFrom 0 0 rest

private theorem ofNat_congr {left right : Nat} (same : left % 256 = right % 256) :
    UInt8.ofNat left = UInt8.ofNat right := by
  rw [← UInt8.toNat_inj, UInt8.toNat_ofNat', UInt8.toNat_ofNat', same]

/-- Induction over groups of four values, with what is left of the last one. -/
@[elab_as_elim] theorem groupInduction {motive : List Nat → Prop} (nil : motive [])
    (one : ∀ a, motive [a]) (two : ∀ a b, motive [a, b]) (three : ∀ a b c, motive [a, b, c])
    (group : ∀ a b c d rest, motive rest → motive (a :: b :: c :: d :: rest)) :
    ∀ values, motive values
  | [] => nil
  | [a] => one a
  | [a, b] => two a b
  | [a, b, c] => three a b c
  | a :: b :: c :: d :: rest => group a b c d rest (groupInduction nil one two three group rest)

/-- Group by group, the loop writes what the values stand for. -/
theorem octetsFrom_zero {values : List Nat} (small : ∀ value ∈ values, value < 64)
    (leftchar : Nat) : octetsFrom 0 leftchar values = octets values := by
  induction values using groupInduction generalizing leftchar with
  | nil => rfl
  | one a => rfl
  | two a b =>
      simp only [List.forall_mem_cons] at small
      simp only [octetsFrom, octets, List.cons.injEq, and_true]
      exact ofNat_congr (by omega)
  | three a b c =>
      simp only [List.forall_mem_cons] at small
      simp only [octetsFrom, octets, List.cons.injEq, and_true]
      exact ⟨ofNat_congr (by omega), ofNat_congr (by omega)⟩
  | group a b c d rest inductionHypothesis =>
      simp only [List.forall_mem_cons] at small
      simp only [octetsFrom, octets, inductionHypothesis small.2.2.2.2, List.cons.injEq, and_true]
      exact ⟨ofNat_congr (by omega), ofNat_congr (by omega), ofNat_congr (by omega)⟩

/-- The position of the loop behind a text, with the pads it has counted there. -/
structure Behind (seen : Str) (quadPos pads : Nat) : Prop where
  position : quadPos = (letters seen).length % 4
  pads : 2 ≤ quadPos → pads = lastPads seen

/-- The loop writes the bytes of the values it reads. -/
theorem a2bBase64_ok {seen text : Str} {quadPos leftchar pads : Nat} {bytes : Bytes}
    (behind : Behind seen quadPos pads) :
    a2bBase64 (text.map urlsafeDecodeTranslation) quadPos leftchar pads = .ok bytes ↔
      ∃ values, Reads seen text values ∧ octetsFrom quadPos leftchar values = bytes := by
  induction text generalizing seen quadPos leftchar pads bytes with
  | nil =>
      simp only [List.map_nil, a2bBase64, reads_nil, ← behind.position]
      by_cases full : quadPos = 0
      · simp [full, octetsFrom]
      · simp [full]
  | cons char rest inductionHypothesis =>
      have position := behind.position
      by_cases pad : char = .scalar '='
      · subst pad
        have noLetter : letters [CodePoint.scalar '='] = [] := by decide
        have same : urlsafeDecodeTranslation (.scalar '=') = .scalar '=' := by decide
        have next : Behind (seen ++ [.scalar '=']) quadPos
            (if 2 ≤ quadPos then pads + 1 else pads) := by
          refine ⟨by rw [letters_append, noLetter, List.append_nil, position], ?_⟩
          intro late
          rw [if_pos late, lastPads_other letterValue_padding, if_pos rfl, behind.pads late]
        simp only [List.map_cons, same, a2bBase64, if_pos]
        by_cases complete : Completes seen
        · have late : 2 ≤ quadPos := by
            rcases complete with three | ⟨two, -⟩ <;> omega
          have pads := behind.pads late
          have enough : 4 ≤ quadPos + (lastPads seen + 1) := by
            rcases complete with three | ⟨two, padded⟩ <;> omega
          subst pads
          simp [late, enough, reads_pad complete, octetsFrom]
        · simp only [reads_cons fun _ => complete, letterValue_padding, Option.toList_none,
            List.nil_append, exists_eq_right, ← inductionHypothesis next]
          by_cases late : 2 ≤ quadPos
          · have pads := behind.pads late
            have short : ¬ 4 ≤ quadPos + (lastPads seen + 1) := by
              intro enough
              apply complete
              unfold Completes
              omega
            subst pads
            simp only [if_pos late, if_neg short]
          · simp only [if_neg late]
      · simp only [reads_cons fun same => absurd same pad]
        cases letter : letterValue char with
        | none =>
            have skipped : tableA2bBase64 (urlsafeDecodeTranslation char) = none := letter
            have noPad : urlsafeDecodeTranslation char ≠ .scalar '=' :=
              fun same => pad (urlsafeDecodeTranslation_eq_padding.mp same)
            have next : Behind (seen ++ [char]) quadPos pads := by
              refine ⟨by simp [letter, position], ?_⟩
              intro late
              rw [lastPads_other letter, if_neg pad, behind.pads late, Nat.add_zero]
            simp only [List.map_cons, a2bBase64, if_neg noPad, skipped, Option.toList_none,
              List.nil_append, exists_eq_right, inductionHypothesis next]
        | some value =>
            have next : Behind (seen ++ [char]) ((quadPos + 1) % 4) 0 := by
              refine ⟨by simp [letter, position], fun _ => ?_⟩
              rw [lastPads_letter (by simp [letter])]
            obtain ⟨first, second, third, fourth⟩ :=
              a2bBase64_letter letter (rest.map urlsafeDecodeTranslation) leftchar pads
            have cases : quadPos = 0 ∨ quadPos = 1 ∨ quadPos = 2 ∨ quadPos = 3 := by omega
            rcases cases with rfl | rfl | rfl | rfl
            · simp [first, inductionHypothesis next, octetsFrom]
            · simp [second, inductionHypothesis next, octetsFrom]
            · simp [third, inductionHypothesis next, octetsFrom]
            · simp [fourth, inductionHypothesis next, octetsFrom]

/-- Letters have small values. -/
theorem letters_lt {text : Str} : ∀ value ∈ letters text, value < 64 := by
  intro value member
  obtain ⟨char, -, letter⟩ := List.mem_filterMap.mp member
  unfold letterValue tableA2bBase64 at letter
  grind

/-- `urlsafe_b64decode` succeeds on an ASCII text that does not end inside a group, with
the bytes of the letters it reads. -/
theorem urlsafeB64decode_ok {text : Str} {bytes : Bytes} :
    urlsafeB64decode text = .ok bytes ↔
      text.Ascii ∧ ∃ values, Reads [] text values ∧ octets values = bytes := by
  have small {values : List Nat} (read : Reads [] text values) : ∀ value ∈ values, value < 64 := by
    rcases read with ⟨before, -, -, -, -, rfl⟩ | ⟨-, -, rfl⟩ <;> exact letters_lt
  have start : Behind [] 0 0 := ⟨rfl, fun late => absurd late (by decide)⟩
  rw [urlsafeB64decode]
  by_cases ascii : text.Ascii
  · rw [if_pos ascii, a2bBase64_ok start]
    simp only [ascii, true_and]
    refine exists_congr fun values => and_congr_right fun read => ?_
    rw [octetsFrom_zero (small read)]
  · simp [ascii]

/-! ### Round trip -/

/-- The pads that bring a text to whole groups. -/
def repadding (text : Str) : Str := List.replicate ((4 - text.length % 4) % 4) (.scalar '=')

theorem b64urlDecode_eq (text : Str) :
    b64urlDecode text = urlsafeB64decode (text ++ repadding text) := rfl

/-- The padding computed from the length is what `b64url` took off. -/
theorem urlsafeB64encode_eq_repadded (data : Bytes) :
    urlsafeB64encode data = b64url data ++ repadding (b64url data) := by
  rw [repadding, b64url_eq, List.length_map]
  induction data using sextets.induct with
  | case1 => rfl
  | case2 a => rfl
  | case3 a b => rfl
  | case4 a b c rest inductionHypothesis =>
      have groups : (sextets (a :: b :: c :: rest)).length = (sextets rest).length + 4 := by
        simp [sextets]
      rw [groups, Nat.add_mod_right]
      simp [urlsafeB64encode, sextets, inductionHypothesis]

theorem letters_b64url (data : Bytes) : letters (b64url data) = sextets data := by
  rw [b64url_eq, letters, List.filterMap_map, List.filterMap_congr (g := some), List.filterMap_some]
  exact fun value member => letterValue_base64Char (sextets_lt value member)

theorem urlSafe_b64url {data : Bytes} : ∀ char ∈ b64url data, UrlSafe char := by
  intro char member
  rw [b64url_eq] at member
  obtain ⟨value, inside, rfl⟩ := List.mem_map.mp member
  exact urlSafe_base64Char (sextets_lt value inside)

theorem UrlSafe.ne_padding {char : CodePoint} (safe : UrlSafe char) : char ≠ .scalar '=' := by
  rintro rfl
  obtain ⟨letter, same, safe⟩ := safe
  cases CodePoint.scalar.inj same
  exact absurd safe (by decide)

theorem ascii_repadded (data : Bytes) : Str.Ascii (b64url data ++ repadding (b64url data)) := by
  intro char member
  rcases List.mem_append.mp member with inside | pad
  · rw [b64url_eq] at inside
    obtain ⟨value, small, rfl⟩ := List.mem_map.mp inside
    exact ascii_base64Char (sextets_lt value small)
  · rw [List.eq_of_mem_replicate pad]
    decide

theorem lastPads_unpadded {text : Str} (unpadded : .scalar '=' ∉ text) : lastPads text = 0 :=
  List.count_eq_zero_of_not_mem fun member => unpadded ((List.rtakeWhile_suffix _ _).subset member)

/-- All letters are read from a text to which only the padding is missing. -/
theorem reads_repadded {text : Str} (unpadded : .scalar '=' ∉ text)
    (length : (letters text).length = text.length) (whole : text.length % 4 ≠ 1) :
    Reads [] (text ++ repadding text) (letters text) := by
  have inside {shorter after : Str} : text ≠ shorter ++ .scalar '=' :: after := by
    rintro rfl
    exact unpadded (by simp)
  have residues : text.length % 4 = 0 ∨ text.length % 4 = 2 ∨ text.length % 4 = 3 := by omega
  unfold repadding
  rcases residues with zero | two | three
  · rw [zero]
    have full : (letters text).length % 4 = 0 := by rw [length, zero]
    refine .inr ⟨?_, by simpa using full, by simp⟩
    intro shorter after split
    exact absurd split (by simpa using inside)
  · rw [two]
    have padded : 0 < lastPads (text ++ [.scalar '=']) := by
      simp [lastPads_other letterValue_padding]
    refine .inl ⟨text ++ [.scalar '='], [], by simp [List.replicate], .inr ⟨?_, padded⟩, ?_, ?_⟩
    · simp [letterValue_padding, length, two]
    · -- The first of the two pads does not complete the group.
      intro shorter after split
      rcases List.eq_nil_or_concat after with rfl | ⟨after, last, rfl⟩
      · obtain ⟨rfl, -⟩ := List.append_inj' split rfl
        rintro (three | ⟨-, pads⟩)
        · simp only [List.nil_append, length, two] at three
          omega
        · simp [lastPads_unpadded unpadded] at pads
      · rw [List.concat_eq_append, ← List.cons_append, ← List.append_assoc] at split
        exact absurd (List.append_inj' split rfl).1 inside
    · simp [letterValue_padding]
  · rw [three]
    refine .inl ⟨text, [], rfl, .inl (by simp [length, three]), ?_, rfl⟩
    intro shorter after split
    exact absurd split inside

/-- Decoding gives the encoded bytes back. -/
theorem b64urlDecode_b64url (data : Bytes) : b64urlDecode (b64url data) = .ok data := by
  have unpadded : .scalar '=' ∉ b64url data :=
    fun member => (urlSafe_b64url _ member).ne_padding rfl
  have length : (letters (b64url data)).length = (b64url data).length := by
    rw [letters_b64url, b64url_eq, List.length_map]
  have whole : (b64url data).length % 4 ≠ 1 := by
    rw [length_b64url]
    omega
  have read := reads_repadded unpadded length whole
  rw [letters_b64url] at read
  rw [b64urlDecode_eq, urlsafeB64decode_ok]
  exact ⟨ascii_repadded data, sextets data, read, octets_sextets data⟩

/-- Every byte string has one text of URL-safe characters, of the length six bits a
character give. The padding left off is the padding the decoder adds, which gives the
bytes back, and no other byte string has the same text. -/
theorem b64url_unpadded (data : Bytes) :
    (∀ char ∈ b64url data, UrlSafe char) ∧
      (b64url data).length = (4 * data.length) ⌈/⌉ 3 ∧
      urlsafeB64encode data = b64url data ++ repadding (b64url data) ∧
      b64urlDecode (b64url data) = .ok data ∧
      ∀ other, b64url other = b64url data → other = data := by
  have length : (b64url data).length = (4 * data.length) ⌈/⌉ 3 := by
    rw [length_b64url, Nat.ceilDiv_eq_add_pred_div]
    rfl
  refine ⟨urlSafe_b64url, length, urlsafeB64encode_eq_repadded data, b64urlDecode_b64url data, ?_⟩
  intro other same
  exact b64url_injective same

end NetworkFinality
