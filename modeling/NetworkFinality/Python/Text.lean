import Mathlib.Data.List.Sort
import Mathlib.Data.Finset.Basic

/-!
# Python text, byte strings and exceptions

A Python `str` is a sequence of code points and may hold lone surrogates, which
no UTF-8 text holds. `encode` is the only place where the difference shows: it
rejects them, as `str.encode("utf-8")` does.
-/

namespace NetworkFinality.Python

/-- The exceptions the modelled code raises. -/
inductive PyError where
  | valueError
  | typeError
  | overflowError
  | unicodeEncodeError
  | validationError
  | integrityError
  | networkError
deriving DecidableEq

/-- A sequence of two computations succeeds exactly when both do. -/
@[simp] theorem bind_eq_ok {α β : Type} {first : Except PyError α} {rest : α → Except PyError β}
    {result : β} :
    (first >>= rest) = .ok result ↔ ∃ value, first = .ok value ∧ rest value = .ok result := by
  cases first <;> simp [bind, Except.bind]

@[simp] theorem map_eq_ok {α β : Type} {f : α → β} {outcome : Except PyError α} {result : β} :
    (f <$> outcome) = .ok result ↔ ∃ value, outcome = .ok value ∧ f value = result := by
  cases outcome <;> simp

@[simp] theorem pure_eq_ok {α : Type} {value result : α} :
    (pure value : Except PyError α) = .ok result ↔ value = result := by
  simp [pure, Except.pure]

/-- One element of a Python string. -/
inductive CodePoint where
  | scalar (value : Char)
  | surrogate (offset : Fin 2048)
deriving DecidableEq

/-- The number of a code point; surrogates start at U+D800. -/
def CodePoint.code : CodePoint → Nat
  | .scalar value => value.toNat
  | .surrogate offset => 0xD800 + offset.val

/-- Different code points have different numbers. -/
theorem CodePoint.code_injective {x y : CodePoint} (same : x.code = y.code) : x = y := by
  cases x with
  | scalar value =>
      cases y with
      | scalar other => exact congrArg scalar (Char.toNat_inj.mp same)
      | surrogate offset =>
          -- No character has the number of a surrogate.
          have valid := value.valid
          have small := offset.isLt
          simp only [code, Char.toNat] at same
          simp only [UInt32.isValidChar, Nat.isValidChar] at valid
          omega
  | surrogate offset =>
      cases y with
      | scalar other =>
          have valid := other.valid
          have small := offset.isLt
          simp only [code, Char.toNat] at same
          simp only [UInt32.isValidChar, Nat.isValidChar] at valid
          omega
      | surrogate other =>
          have equal : offset.val = other.val := by simpa [code] using same
          exact congrArg surrogate (Fin.ext equal)

/-- A Python `str`. -/
abbrev Str := List CodePoint

/-- A Python `bytes`. -/
abbrev Bytes := List UInt8

/-- The text of a literal. -/
def Str.ofString (text : String) : Str := text.toList.map .scalar

instance : Coe String Str := ⟨Str.ofString⟩

theorem Str.ofString_inj {left right : String} :
    Str.ofString left = Str.ofString right ↔ left = right := by
  constructor
  · intro same
    exact String.toList_inj.mp (List.map_injective_iff.mpr (fun _ _ => CodePoint.scalar.inj) same)
  · rintro rfl
    rfl

instance : Inhabited CodePoint := ⟨.scalar default⟩

/-- Python compares strings by code points. -/
def Str.le : Str → Str → Bool
  | [], _ => true
  | _ :: _, [] => false
  | x :: xs, y :: ys => x.code < y.code || (x.code == y.code && Str.le xs ys)

theorem Str.le_total (left right : Str) : Str.le left right = true ∨ Str.le right left = true := by
  induction left generalizing right with
  | nil => exact .inl rfl
  | cons x xs inductionHypothesis =>
      cases right with
      | nil => exact .inr rfl
      | cons y ys =>
          simp only [Str.le, Bool.or_eq_true, Bool.and_eq_true, decide_eq_true_eq, beq_iff_eq]
          have tails := inductionHypothesis ys
          grind

theorem Str.le_trans {first second third : Str} (before : Str.le first second = true)
    (after : Str.le second third = true) : Str.le first third = true := by
  induction first generalizing second third with
  | nil => rfl
  | cons x xs inductionHypothesis =>
      cases second with
      | nil => cases before
      | cons y ys =>
          cases third with
          | nil => cases after
          | cons z zs =>
              have tails := @inductionHypothesis ys zs
              simp only [Str.le, Bool.or_eq_true, Bool.and_eq_true, decide_eq_true_eq,
                beq_iff_eq] at before after ⊢
              grind

theorem Str.le_antisymm {left right : Str} (before : Str.le left right = true)
    (after : Str.le right left = true) : left = right := by
  induction left generalizing right with
  | nil =>
      cases right with
      | nil => rfl
      | cons y ys => cases after
  | cons x xs inductionHypothesis =>
      cases right with
      | nil => cases before
      | cons y ys =>
          simp only [Str.le, Bool.or_eq_true, Bool.and_eq_true, decide_eq_true_eq,
            beq_iff_eq] at before after
          have same : x.code = y.code := by omega
          obtain rfl := CodePoint.code_injective same
          rw [inductionHypothesis (by simpa using before) (by simpa using after)]

/-- The UTF-8 bytes of one code point. -/
def CodePoint.encode : CodePoint → Except PyError Bytes
  | .scalar value => .ok (String.utf8EncodeChar value)
  | .surrogate _ => .error .unicodeEncodeError

/-- `text.encode("utf-8")`. -/
def Str.encode : Str → Except PyError Bytes
  | [] => .ok []
  | x :: xs => do
      let head ← x.encode
      let tail ← Str.encode xs
      return head ++ tail

/-- The text has a UTF-8 form; SQLite stores no other text. -/
def Str.Encodable (text : Str) : Prop := ∀ x ∈ text, ∃ value, x = .scalar value

instance (x : CodePoint) : Decidable (∃ value, x = .scalar value) :=
  match x with
  | .scalar value => isTrue ⟨value, rfl⟩
  | .surrogate _ => isFalse (by simp)

instance (text : Str) : Decidable (Str.Encodable text) :=
  inferInstanceAs (Decidable (∀ x ∈ text, ∃ value, x = .scalar value))

theorem Str.encodable_ofString (text : String) : Str.Encodable (Str.ofString text) := by
  intro x member
  obtain ⟨value, -, rfl⟩ := List.mem_map.mp member
  exact ⟨value, rfl⟩

theorem Str.encodable_append {first second : Str} :
    Str.Encodable (first ++ second) ↔ Str.Encodable first ∧ Str.Encodable second := by
  simp only [Str.Encodable, List.mem_append]
  constructor
  · intro all
    exact ⟨fun x member => all x (.inl member), fun x member => all x (.inr member)⟩
  · rintro ⟨left, right⟩ x (member | member)
    · exact left x member
    · exact right x member

/-- Encoding succeeds exactly on encodable text. -/
theorem Str.encode_isOk_iff (text : Str) : (∃ bytes, Str.encode text = .ok bytes) ↔
    Str.Encodable text := by
  induction text with
  | nil => simp [Str.encode, Str.Encodable]
  | cons x xs inductionHypothesis =>
      cases x with
      | surrogate offset =>
          simp [Str.encode, CodePoint.encode, Str.Encodable, bind, Except.bind]
      | scalar value =>
          cases encoded : Str.encode xs with
          | error reason =>
              simp only [encoded, reduceCtorEq, exists_false, false_iff] at inductionHypothesis
              simp only [Str.encode, CodePoint.encode, encoded, bind, Except.bind, reduceCtorEq,
                exists_false, false_iff]
              intro all
              exact inductionHypothesis fun y member => all y (List.mem_cons_of_mem _ member)
          | ok bytes =>
              have tail : Str.Encodable xs := inductionHypothesis.mp ⟨bytes, encoded⟩
              simp only [Str.encode, CodePoint.encode, encoded, bind, Except.bind, pure,
                Except.pure, Except.ok.injEq, exists_eq', true_iff]
              intro y member
              rcases List.mem_cons.mp member with rfl | member
              · exact ⟨value, rfl⟩
              · exact tail y member

/-- The bytes of a text start with those of its first character. -/
private theorem encode_cons {x : CodePoint} {xs : Str} {bytes : Bytes} :
    Str.encode (x :: xs) = .ok bytes ↔ ∃ value tail, x = .scalar value ∧
      Str.encode xs = .ok tail ∧ bytes = String.utf8EncodeChar value ++ tail := by
  cases x with
  | surrogate offset => simp [Str.encode, CodePoint.encode, bind, Except.bind]
  | scalar value =>
      simp only [Str.encode, CodePoint.encode, bind_eq_ok, pure_eq_ok, Except.ok.injEq,
        exists_eq_left', CodePoint.scalar.injEq]
      constructor
      · rintro ⟨tail, encoded, rfl⟩
        exact ⟨value, tail, rfl, encoded, rfl⟩
      · rintro ⟨_, tail, rfl, encoded, rfl⟩
        exact ⟨tail, encoded, rfl⟩

/-- A character is read back from the front of its bytes. -/
private theorem utf8EncodeChar_append_inj {value other : Char} {rest rest' : Bytes}
    (same : String.utf8EncodeChar value ++ rest = String.utf8EncodeChar other ++ rest') :
    value = other ∧ rest = rest' := by
  have read := congrArg (fun bytes : Bytes => bytes.toByteArray.utf8DecodeChar? 0) same
  simp only [List.toByteArray_append, ByteArray.utf8DecodeChar?_utf8EncodeChar_append,
    Option.some.injEq] at read
  subst read
  exact ⟨rfl, List.append_cancel_left same⟩

private theorem utf8EncodeChar_append_ne_nil (value : Char) (rest : Bytes) :
    String.utf8EncodeChar value ++ rest ≠ [] := by
  have positive : 0 < (String.utf8EncodeChar value).length := by
    rw [String.length_utf8EncodeChar]
    exact value.utf8Size_pos
  exact List.append_ne_nil_of_left_ne_nil (List.ne_nil_of_length_pos positive) _

/-- Different texts have different bytes. -/
theorem Str.encode_injective {text other : Str} {bytes : Bytes}
    (encoded : text.encode = .ok bytes) (encoded' : other.encode = .ok bytes) : text = other := by
  induction text generalizing other bytes with
  | nil =>
      obtain rfl := Except.ok.inj encoded
      cases other with
      | nil => rfl
      | cons y ys =>
          obtain ⟨value, tail, -, -, empty⟩ := encode_cons.mp encoded'
          exact absurd empty.symm (utf8EncodeChar_append_ne_nil value tail)
  | cons x xs inductionHypothesis =>
      obtain ⟨value, tail, rfl, further, rfl⟩ := encode_cons.mp encoded
      cases other with
      | nil => exact absurd (Except.ok.inj encoded').symm (utf8EncodeChar_append_ne_nil value tail)
      | cons y ys =>
          obtain ⟨value', tail', rfl, further', same⟩ := encode_cons.mp encoded'
          obtain ⟨rfl, rfl⟩ := utf8EncodeChar_append_inj same
          rw [inductionHypothesis further further']

/-- Text as a field with `min_length` holds it: of at least `least` code points, and with a
UTF-8 form, in which its length is checked. -/
abbrev MinStr (least : Nat) := {text : Str // least ≤ text.length ∧ text.Encodable}

/-- Validation of a field with `min_length`. -/
def MinStr.validate (least : Nat) (text : Str) : Except PyError (MinStr least) :=
  if valid : least ≤ text.length ∧ text.Encodable then .ok ⟨text, valid⟩
  else .error .validationError

theorem MinStr.validate_ok {least : Nat} {text : Str} {value : MinStr least}
    (valid : MinStr.validate least text = .ok value) : value.1 = text := by
  unfold MinStr.validate at valid
  split at valid
  · cases valid
    rfl
  · cases valid

/-- Validation of an integer field with `ge=0`. -/
def nonNegative (value : Int) : Except PyError Nat :=
  if 0 ≤ value then .ok value.toNat else .error .validationError

theorem nonNegative_ok {value : Int} {result : Nat} (valid : nonNegative value = .ok result) :
    (result : Int) = value := by
  unfold nonNegative at valid
  split at valid
  · cases valid
    omega
  · cases valid

/-- `bool(text)` for an optional string: absent and empty are both false. -/
def truthy : Option Str → Bool
  | none => false
  | some text => !text.isEmpty

end NetworkFinality.Python
