import NetworkFinality.Python.Json
import NetworkFinality.Semantics.Code

/-!
# What the text of a value says

The text `dumps` writes for plain data determines the data: strings are read off by
their escapes, integers up to the first symbol that is no numeral, and lists and dicts
up to their closing bracket.
-/

namespace NetworkFinality.Python

open Semantics

/-! ### Strings -/

/-- The code points that are written as they are. -/
def CodePoint.Plain (x : CodePoint) : Prop := x.code ≠ 0x22 ∧ x.code ≠ 0x5C ∧ 0x20 ≤ x.code

instance (x : CodePoint) : Decidable x.Plain := by
  unfold CodePoint.Plain
  infer_instance

theorem escape_plain {x : CodePoint} (plain : x.Plain) : escape x = [x] := by
  obtain ⟨quotation, backslash, printable⟩ := plain
  unfold escape
  repeat rw [if_neg (by omega)]

/-- The other code points: the quotation mark, the backslash and the controls. -/
def escaped : List CodePoint :=
  .scalar '"' :: .scalar '\\' :: (List.range 0x20).map fun code => .scalar (Char.ofNat code)

theorem mem_escaped {x : CodePoint} (special : ¬ x.Plain) : x ∈ escaped := by
  have cases : x.code = 0x22 ∨ x.code = 0x5C ∨ x.code < 0x20 := by
    unfold CodePoint.Plain at special
    omega
  rcases cases with quotation | backslash | control
  · rw [CodePoint.code_injective (y := .scalar '"') quotation]
    simp [escaped]
  · rw [CodePoint.code_injective (y := .scalar '\\') backslash]
    simp [escaped]
  · cases x with
    | surrogate offset =>
        simp only [CodePoint.code] at control
        omega
    | scalar value =>
        rw [escaped, List.mem_cons, List.mem_cons, List.mem_map]
        exact .inr (.inr ⟨value.toNat, List.mem_range.mpr control, by rw [Char.ofNat_toNat]⟩)

/-- An escape starts with a backslash. -/
theorem escape_escaped : ∀ x ∈ escaped, (escape x).head? = some (.scalar '\\') := by
  decide +kernel

private theorem escaped_prefixFree :
    ∀ x ∈ escaped, ∀ y ∈ escaped, (escape x).isPrefixOf (escape y) = true → x = y := by
  decide +kernel

private theorem escape_head_plain {x : CodePoint} (plain : x.Plain) :
    x ≠ .scalar '"' ∧ x ≠ .scalar '\\' := by
  obtain ⟨quotation, backslash, -⟩ := plain
  constructor
  · rintro rfl
    exact quotation rfl
  · rintro rfl
    exact backslash rfl

/-- The escape of a code point is not empty and does not start with a quotation mark. -/
theorem escape_opens (x : CodePoint) : ∃ first rest, escape x = first :: rest ∧
    first ≠ .scalar '"' ∧ (first = .scalar '\\' ↔ ¬ x.Plain) := by
  by_cases plain : x.Plain
  · obtain ⟨quotation, backslash⟩ := escape_head_plain plain
    exact ⟨x, [], escape_plain plain, quotation, by simp [plain, backslash]⟩
  · have head := escape_escaped x (mem_escaped plain)
    cases written : escape x with
    | nil => simp [written] at head
    | cons first rest =>
        obtain rfl : first = .scalar '\\' := by simpa [written] using head
        exact ⟨_, rest, rfl, by decide, by simp [plain]⟩

/-- No escape continues another. -/
theorem escape_prefixFree {x y : CodePoint} (shorter : escape x <+: escape y) : x = y := by
  obtain ⟨first, rest, written, -, special⟩ := escape_opens x
  obtain ⟨first', rest', written', -, special'⟩ := escape_opens y
  have heads : first = first' := by
    rw [written, written'] at shorter
    exact (List.cons_prefix_cons.mp shorter).1
  by_cases plain : x.Plain
  · have plain' : y.Plain := by
      by_contra unusual
      exact special.mp (heads.trans (special'.mpr unusual)) plain
    rw [escape_plain plain, escape_plain plain'] at shorter
    exact (List.cons_prefix_cons.mp shorter).1
  · have plain' : ¬ y.Plain := special'.mp (heads.symm.trans (special.mpr plain))
    exact escaped_prefixFree x (mem_escaped plain) y (mem_escaped plain')
      (List.isPrefixOf_iff_prefix.mpr shorter)

/-- A quoted text ends at its closing quotation mark, and says what it quotes. -/
theorem quote_append_inj {text other rest rest' : Str}
    (same : quote text ++ rest = quote other ++ rest') : text = other ∧ rest = rest' := by
  have body : ∀ {text other rest rest' : Str},
      text.flatMap escape ++ .scalar '"' :: rest = other.flatMap escape ++ .scalar '"' :: rest' →
        text = other ∧ rest = rest' := by
    intro text
    induction text with
    | nil =>
        rintro (_ | ⟨y, ys⟩) rest rest' same
        · exact ⟨rfl, (List.cons.inj same).2⟩
        · obtain ⟨first, further, written, other, -⟩ := escape_opens y
          simp only [List.flatMap_nil, List.nil_append, List.flatMap_cons, written,
            List.cons_append] at same
          exact absurd (List.cons.inj same).1.symm other
    | cons x xs inductionHypothesis =>
        rintro (_ | ⟨y, ys⟩) rest rest' same
        · obtain ⟨first, further, written, other, -⟩ := escape_opens x
          simp only [List.flatMap_nil, List.nil_append, List.flatMap_cons, written,
            List.cons_append] at same
          exact absurd (List.cons.inj same).1 other
        · simp only [List.flatMap_cons, List.append_assoc] at same
          have comparable := List.prefix_or_prefix_of_prefix
            (List.prefix_append (escape x) _) (same ▸ List.prefix_append (escape y) _)
          obtain rfl : x = y := comparable.elim escape_prefixFree
            fun longer => (escape_prefixFree longer).symm
          obtain ⟨rfl, remains⟩ := inductionHypothesis (List.append_cancel_left same)
          exact ⟨rfl, remains⟩
  have opening : ("\"" : Str) = [.scalar '"'] := rfl
  simp only [quote, opening, List.append_assoc, List.cons_append,
    List.nil_append, List.cons.injEq, true_and] at same
  exact body same

/-! ### Integers -/

/-- The code points of a decimal number. -/
def CodePoint.Numeral (x : CodePoint) : Prop :=
  ∃ value : Char, x = .scalar value ∧ (value = '-' ∨ value.isDigit = true)

/-- Nothing follows that would continue a number. -/
def Ends (rest : Str) : Prop := ∀ x ∈ rest.head?, ¬ x.Numeral

theorem ends_cons {x : CodePoint} {rest : Str} (other : ¬ x.Numeral) : Ends (x :: rest) := by
  rintro _ ⟨⟩
  exact other

theorem intText_ok {value : Int} {text : Str} (written : intText value = .ok text) :
    text = value.repr.toList.map .scalar := by
  unfold intText at written
  split at written
  · exact (Except.ok.inj written).symm
  · cases written

private theorem toList_repr (n : Nat) : n.repr.toList = Nat.toDigits 10 n := by
  simp [Nat.repr_eq_ofList_toDigits]

private theorem toList_repr_negSucc (n : Nat) :
    (Int.repr (.negSucc n)).toList = '-' :: Nat.toDigits 10 (n + 1) := by
  have spelled : Int.repr (.negSucc n) = "-" ++ Nat.repr (n + 1) := rfl
  rw [spelled, String.toList_append, toList_repr]
  rfl

private theorem isDigit_of_mem {n : Nat} {value : Char} (member : value ∈ Nat.toDigits 10 n) :
    value.isDigit = true := Nat.isDigit_of_mem_toDigits (by decide) (by decide) member

private theorem toDigits_injective {m n : Nat} (same : Nat.toDigits 10 m = Nat.toDigits 10 n) :
    m = n := by
  rw [← Nat.ofDigitChars_ten_toDigits (n := m), same, Nat.ofDigitChars_ten_toDigits]

/-- The text of an integer is a run of numerals. -/
theorem intText_numerals {value : Int} {text : Str} (written : intText value = .ok text) :
    text ≠ [] ∧ ∀ x ∈ text, x.Numeral := by
  obtain rfl := intText_ok written
  cases value with
  | ofNat n =>
      rw [show (Int.repr (.ofNat n)).toList = Nat.toDigits 10 n from toList_repr n]
      refine ⟨by simp [Nat.toDigits_ne_nil], fun x listed => ?_⟩
      obtain ⟨value, member, rfl⟩ := List.mem_map.mp listed
      exact ⟨value, rfl, .inr (isDigit_of_mem member)⟩
  | negSucc n =>
      rw [toList_repr_negSucc]
      refine ⟨by simp, fun x listed => ?_⟩
      obtain ⟨value, member, rfl⟩ := List.mem_map.mp listed
      rcases List.mem_cons.mp member with rfl | digit
      · exact ⟨_, rfl, .inl rfl⟩
      · exact ⟨value, rfl, .inr (isDigit_of_mem digit)⟩

/-- Different integers have different texts. -/
theorem intText_injective {value other : Int} {text : Str} (written : intText value = .ok text)
    (written' : intText other = .ok text) : value = other := by
  have same := (intText_ok written).symm.trans (intText_ok written')
  have same := List.map_injective_iff.mpr (fun _ _ => CodePoint.scalar.inj) same
  cases value with
  | ofNat m =>
      rw [show (Int.repr (.ofNat m)).toList = Nat.toDigits 10 m from toList_repr m] at same
      cases other with
      | ofNat n =>
          rw [show (Int.repr (.ofNat n)).toList = Nat.toDigits 10 n from toList_repr n] at same
          rw [toDigits_injective same]
      | negSucc n =>
          rw [toList_repr_negSucc] at same
          have digit : '-'.isDigit = true := isDigit_of_mem (n := m) (by simp [same])
          cases digit
  | negSucc m =>
      rw [toList_repr_negSucc] at same
      cases other with
      | ofNat n =>
          rw [show (Int.repr (.ofNat n)).toList = Nat.toDigits 10 n from toList_repr n] at same
          have digit : '-'.isDigit = true := isDigit_of_mem (n := n) (by simp [← same])
          cases digit
      | negSucc n =>
          rw [toList_repr_negSucc] at same
          have equal := toDigits_injective (List.cons.inj same).2
          rw [Nat.succ.inj equal]

/-! ### Values -/

/-- Plain data whose dicts have text keys, in the order of these keys. -/
inductive Value.Arranged : Value → Prop where
  | none : Arranged .none
  | bool (value : Bool) : Arranged (.bool value)
  | int (value : Int) : Arranged (.int value)
  | str (text : Str) : Arranged (.str text)
  | list {items : List Value} (each : ∀ item ∈ items, Arranged item) : Arranged (.list items)
  | dict {items : List (Key × Value)} (textual : ∀ item ∈ items, ∃ name, item.1 = .str name)
      (sorted : items.Pairwise fun left right => left.1.le right.1 = true)
      (each : ∀ item ∈ items, Arranged item.2) : Arranged (.dict items)

/-- What the first code point of a text says about its value. -/
inductive Lead where
  | null
  | truth
  | number
  | string
  | list
  | dict
  | nothing
deriving DecidableEq

def CodePoint.lead : CodePoint → Lead
  | .surrogate _ => .nothing
  | .scalar value =>
      if value = 'n' then .null
      else if value = 't' ∨ value = 'f' then .truth
      else if value = '"' then .string
      else if value = '[' then .list
      else if value = '\x7b' then .dict
      else if value = '-' ∨ value.isDigit = true then .number
      else .nothing

def Value.lead : Value → Lead
  | .none => .null
  | .bool _ => .truth
  | .int _ => .number
  | .str _ => .string
  | .list _ => .list
  | .dict _ => .dict
  | _ => .nothing

/-- How arranged values are written. -/
def valueCode : Code Value CodePoint := fun value text => value.Arranged ∧ dumps value = .ok text

/-- How the items of a dict are written. -/
def itemCode : Code (Key × Value) CodePoint :=
  Code.Joined (fun key text => ∃ name, key = .str name ∧ text = quote name) (.scalar ':') valueCode

theorem CodePoint.Numeral.lead {x : CodePoint} (numeral : x.Numeral) : x.lead = .number := by
  obtain ⟨value, rfl, kind⟩ := numeral
  have other : ∀ letter : Char, letter ≠ '-' → letter.isDigit = false → value ≠ letter := by
    rintro letter sign digit rfl
    rcases kind with rfl | kind
    · exact sign rfl
    · rw [digit] at kind
      cases kind
  simp only [CodePoint.lead, if_neg (other 'n' (by decide) (by decide)),
    if_neg (other '"' (by decide) (by decide)), if_neg (other '[' (by decide) (by decide)),
    if_neg (other '\x7b' (by decide) (by decide)), if_pos kind]
  rw [if_neg]
  rintro (same | same)
  · exact other 't' (by decide) (by decide) same
  · exact other 'f' (by decide) (by decide) same

/-- The first code point of a text tells the kind of its value. -/
theorem valueCode_lead {value : Value} {text : Str} (written : valueCode value text) :
    ∃ first rest, text = first :: rest ∧ first.lead = value.lead ∧ value.lead ≠ .nothing := by
  obtain ⟨arranged, written⟩ := written
  cases arranged with
  | none =>
      obtain rfl := Except.ok.inj written
      exact ⟨.scalar 'n', _, rfl, rfl, by decide⟩
  | bool value =>
      obtain rfl := Except.ok.inj written
      cases value with
      | true => exact ⟨.scalar 't', _, rfl, rfl, by decide⟩
      | false => exact ⟨.scalar 'f', _, rfl, rfl, by decide⟩
  | int value =>
      obtain ⟨present, numerals⟩ := intText_numerals written
      obtain ⟨first, rest, rfl⟩ := List.exists_cons_of_ne_nil present
      exact ⟨first, rest, rfl, (numerals first (by simp)).lead, by simp [Value.lead]⟩
  | str text =>
      obtain rfl := Except.ok.inj written
      exact ⟨.scalar '"', _, rfl, rfl, by simp [Value.lead]⟩
  | list each =>
      simp only [dumps, bind_eq_ok, pure_eq_ok] at written
      obtain ⟨texts, -, rfl⟩ := written
      exact ⟨.scalar '[', _, rfl, rfl, by simp [Value.lead]⟩
  | dict textual sorted each =>
      simp only [dumps, bind_eq_ok, pure_eq_ok] at written
      obtain ⟨texts, -, _, -, rfl⟩ := written
      exact ⟨.scalar '\x7b', _, rfl, rfl, by simp [Value.lead]⟩

/-- Items in the order of their text keys stay as they are. -/
theorem sortItems_of_sorted {α : Type} {items : List (Key × α)}
    (textual : ∀ item ∈ items, ∃ name, item.1 = .str name)
    (sorted : items.Pairwise fun left right => left.1.le right.1 = true) :
    sortItems items = .ok items := by
  have texts : items.all (·.1.isText) = true := by
    rw [List.all_eq_true]
    intro item member
    obtain ⟨name, text⟩ := textual item member
    rw [text]
    rfl
  rw [sortItems, if_pos (.inr (.inl texts)), sorted.insertionSort_eq]

private theorem dumpsItems_keys {items : List (Key × Value)} {texts : List (Key × Str)}
    (written : dumpsItems items = .ok texts) : texts.map (·.1) = items.map (·.1) := by
  induction items generalizing texts with
  | nil =>
      obtain rfl := Except.ok.inj written
      rfl
  | cons item items inductionHypothesis =>
      simp only [dumpsItems, bind_eq_ok, pure_eq_ok] at written
      obtain ⟨name, -, text, -, others, further, rfl⟩ := written
      simp [inductionHypothesis further]

private theorem dumpsList_separated {items : List Value} {texts : List Str}
    (each : ∀ item ∈ items, item.Arranged) (written : dumpsList items = .ok texts) :
    valueCode.Separated (.scalar ',') items (commaSeparated texts) := by
  induction items generalizing texts with
  | nil =>
      obtain rfl := Except.ok.inj written
      exact .nil
  | cons item items inductionHypothesis =>
      simp only [dumpsList, bind_eq_ok, pure_eq_ok] at written
      obtain ⟨text, first, others, further, rfl⟩ := written
      have tail := inductionHypothesis (fun item member => each item (by simp [member])) further
      cases items with
      | nil =>
          obtain rfl := Except.ok.inj further
          exact .single ⟨each item (by simp), first⟩
      | cons next items =>
          simp only [dumpsList, bind_eq_ok, pure_eq_ok] at further
          obtain ⟨nextText, -, rest, -, rfl⟩ := further
          have listed := Code.Separated.cons ⟨each item (by simp), first⟩ tail
          simpa [commaSeparated, Str.ofString] using listed

private theorem dumpsItems_separated {items : List (Key × Value)} {texts : List (Key × Str)}
    (textual : ∀ item ∈ items, ∃ name, item.1 = .str name)
    (each : ∀ item ∈ items, item.2.Arranged) (written : dumpsItems items = .ok texts) :
    itemCode.Separated (.scalar ',') items (commaSeparated (texts.map (·.2))) := by
  induction items generalizing texts with
  | nil =>
      obtain rfl := Except.ok.inj written
      exact .nil
  | cons item items inductionHypothesis =>
      obtain ⟨key, value⟩ := item
      obtain ⟨name, named⟩ := textual (key, value) (by simp)
      obtain rfl : key = .str name := named
      simp only [dumpsItems, keyText, bind_eq_ok, pure_eq_ok, Except.ok.injEq,
        exists_eq_left'] at written
      obtain ⟨text, first, others, further, rfl⟩ := written
      have item : itemCode (.str name, value) (quote name ++ .scalar ':' :: text) :=
        ⟨_, _, ⟨name, rfl, rfl⟩, ⟨each (.str name, value) (by simp), first⟩, rfl⟩
      have tail := inductionHypothesis (fun item member => textual item (by simp [member]))
        (fun item member => each item (by simp [member])) further
      cases items with
      | nil =>
          obtain rfl := Except.ok.inj further
          simpa [commaSeparated, Str.ofString] using Code.Separated.single item
      | cons next items =>
          simp only [dumpsItems, bind_eq_ok, pure_eq_ok] at further
          obtain ⟨nextName, -, nextText, -, rest, -, rfl⟩ := further
          have listed := Code.Separated.cons item tail
          simpa [commaSeparated, Str.ofString] using listed

/-- Texts that begin alike are texts of values of one kind. -/
private theorem lead_eq {value value' : Value} {text text' rest rest' : Str}
    (written : valueCode value text) (written' : valueCode value' text')
    (same : text ++ rest = text' ++ rest') : value.lead = value'.lead := by
  obtain ⟨first, further, rfl, lead, -⟩ := valueCode_lead written
  obtain ⟨first', further', rfl, lead', -⟩ := valueCode_lead written'
  rw [← lead, ← lead', (List.cons.inj same).1]

private theorem keyCode_readable {follows : Str → Prop} (key : Key) :
    Code.ReadableAt (fun key text => ∃ name, key = .str name ∧ text = quote name) follows key := by
  rintro key' _ _ rest rest' ⟨name, rfl, rfl⟩ ⟨name', rfl, rfl⟩ - - same
  obtain ⟨rfl, remains⟩ := quote_append_inj same
  exact ⟨rfl, remains⟩

/-- The text of a list is its separated items between brackets. -/
private theorem dumps_list {items : List Value} {text : Str}
    (each : ∀ item ∈ items, item.Arranged) (written : dumps (.list items) = .ok text) :
    ∃ body, valueCode.Separated (.scalar ',') items body ∧
      text = .scalar '[' :: (body ++ [.scalar ']']) := by
  simp only [dumps, bind_eq_ok, pure_eq_ok] at written
  obtain ⟨texts, listed, rfl⟩ := written
  exact ⟨_, dumpsList_separated each listed, rfl⟩

/-- The text of a dict is its separated items between braces. -/
private theorem dumps_dict {items : List (Key × Value)} {text : Str}
    (textual : ∀ item ∈ items, ∃ name, item.1 = .str name)
    (sorted : items.Pairwise fun left right => left.1.le right.1 = true)
    (each : ∀ item ∈ items, item.2.Arranged) (written : dumps (.dict items) = .ok text) :
    ∃ body, itemCode.Separated (.scalar ',') items body ∧
      text = .scalar '\x7b' :: (body ++ [.scalar '\x7d']) := by
  simp only [dumps, bind_eq_ok, pure_eq_ok] at written
  obtain ⟨texts, listed, arranged, sorting, rfl⟩ := written
  have keys := dumpsItems_keys listed
  have unsorted : sortItems texts = .ok texts := by
    apply sortItems_of_sorted
    · intro item member
      obtain ⟨original, present, same⟩ : ∃ original ∈ items, original.1 = item.1 := by
        have key : item.1 ∈ items.map (·.1) := keys ▸ List.mem_map_of_mem member
        exact List.mem_map.mp key
      rw [← same]
      exact textual original present
    · have byKeys : (items.map (·.1)).Pairwise fun left right => left.le right = true :=
        List.pairwise_map.mpr sorted
      rw [← keys] at byKeys
      exact List.pairwise_map.mp byKeys
  obtain rfl := Except.ok.inj (unsorted.symm.trans sorting)
  exact ⟨_, dumpsItems_separated textual each listed, rfl⟩

/-- The text of an arranged value says which value it is, in front of anything that does
not continue a number. -/
theorem valueCode_readable {value : Value} (arranged : value.Arranged) :
    valueCode.ReadableAt Ends value := by
  have numeral : ∀ {x : CodePoint}, x.lead ≠ .number → ¬ x.Numeral :=
    fun different numeral => different numeral.lead
  have comma : ∀ rest, Ends (.scalar ',' :: rest) := fun _ => ends_cons (numeral (by decide))
  induction arranged with
  | none =>
      intro value' text text' rest rest' written written' _ _ same
      have leads := lead_eq written written' same
      obtain ⟨arranged', written'⟩ := written'
      cases arranged' with
      | none =>
          obtain rfl := Except.ok.inj written.2
          obtain rfl := Except.ok.inj written'
          exact ⟨rfl, List.append_cancel_left same⟩
      | _ => cases leads
  | bool value =>
      intro value' text text' rest rest' written written' _ _ same
      have leads := lead_eq written written' same
      obtain ⟨arranged', written'⟩ := written'
      cases arranged' with
      | bool value' =>
          obtain rfl := Except.ok.inj written.2
          obtain rfl := Except.ok.inj written'
          cases value <;> cases value' <;>
            first
            | exact ⟨rfl, List.append_cancel_left same⟩
            | cases (List.cons.inj same).1
      | _ => cases leads
  | int value =>
      intro value' text text' rest rest' written written' ends ends' same
      have leads := lead_eq written written' same
      obtain ⟨arranged', written'⟩ := written'
      cases arranged' with
      | int value' =>
          obtain ⟨rfl, remains⟩ := Code.run_append_inj (intText_numerals written.2).2
            (intText_numerals written').2 ends ends' same
          rw [intText_injective written.2 written']
          exact ⟨rfl, remains⟩
      | _ => cases leads
  | str text =>
      intro value' text text' rest rest' written written' _ _ same
      have leads := lead_eq written written' same
      obtain ⟨arranged', written'⟩ := written'
      cases arranged' with
      | str value' =>
          obtain rfl := Except.ok.inj written.2
          obtain rfl := Except.ok.inj written'
          obtain ⟨rfl, remains⟩ := quote_append_inj same
          exact ⟨rfl, remains⟩
      | _ => cases leads
  | @list items each inductionHypothesis =>
      intro value' text text' rest rest' written written' _ _ same
      have leads := lead_eq written written' same
      obtain ⟨arranged', written'⟩ := written'
      cases arranged' with
      | list each' =>
          obtain ⟨body, listed, rfl⟩ := dumps_list each written.2
          obtain ⟨body', listed', rfl⟩ := dumps_list each' written'
          simp only [List.cons_append, List.append_assoc, List.nil_append, List.cons.injEq,
            true_and] at same
          have readable : (valueCode.Separated (.scalar ',')).ReadableAt
              (fun rest => ∃ further, rest = .scalar ']' :: further) items := by
            apply Code.ReadableAt.separated (by decide) comma _ _ inductionHypothesis
            · exact fun _ => ends_cons (numeral (by decide))
            · intro value text written
              obtain ⟨first, rest, rfl, lead, known⟩ := valueCode_lead written
              refine ⟨first, rest, rfl, ?_⟩
              rintro rfl
              exact known lead.symm
          obtain ⟨rfl, remains⟩ := readable listed listed' ⟨_, rfl⟩ ⟨_, rfl⟩ same
          exact ⟨rfl, (List.cons.inj remains).2⟩
      | _ => cases leads
  | @dict items textual sorted each inductionHypothesis =>
      intro value' text text' rest rest' written written' _ _ same
      have leads := lead_eq written written' same
      obtain ⟨arranged', written'⟩ := written'
      cases arranged' with
      | dict textual' sorted' each' =>
          obtain ⟨body, listed, rfl⟩ := dumps_dict textual sorted each written.2
          obtain ⟨body', listed', rfl⟩ := dumps_dict textual' sorted' each' written'
          simp only [List.cons_append, List.append_assoc, List.nil_append, List.cons.injEq,
            true_and] at same
          have readable : (itemCode.Separated (.scalar ',')).ReadableAt
              (fun rest => ∃ further, rest = .scalar '\x7d' :: further) items := by
            apply @Code.ReadableAt.separated _ _ _ Ends _ _ (by decide) comma
            · exact fun _ => ends_cons (numeral (by decide))
            · rintro ⟨key, value⟩ _ ⟨_, text, ⟨name, -, rfl⟩, -, rfl⟩
              exact ⟨.scalar '"', _, rfl, by decide⟩
            · intro item member
              exact Code.ReadableAt.joined (keyCode_readable item.1) (inductionHypothesis item member)
          obtain ⟨rfl, remains⟩ := readable listed listed' ⟨_, rfl⟩ ⟨_, rfl⟩ same
          exact ⟨rfl, (List.cons.inj remains).2⟩
      | _ => cases leads

/-- Arranged values with one text are the same. -/
theorem dumps_injective {value value' : Value} {text : Str} (arranged : value.Arranged)
    (arranged' : value'.Arranged) (written : dumps value = .ok text)
    (written' : dumps value' = .ok text) : value = value' :=
  (@valueCode_readable _ arranged _ _ _ [] [] ⟨arranged, written⟩ ⟨arranged', written'⟩
    (by rintro _ ⟨⟩) (by rintro _ ⟨⟩) rfl).1

/-! ### Texts with a UTF-8 form -/

theorem quote_encodable {text : Str} (encodable : text.Encodable) : (quote text).Encodable := by
  have each : ∀ x ∈ text, (escape x).Encodable := by
    intro x member y member'
    obtain ⟨value, rfl⟩ := encodable x member
    by_cases plain : (CodePoint.scalar value).Plain
    · rw [escape_plain plain, List.mem_singleton] at member'
      exact ⟨value, member'⟩
    · have scalars : ∀ x ∈ escaped, (escape x).Encodable := by decide +kernel
      exact scalars _ (mem_escaped plain) y member'
  rw [quote, Str.encodable_append, Str.encodable_append]
  refine ⟨⟨by decide, fun y member => ?_⟩, by decide⟩
  obtain ⟨x, present, member⟩ := List.mem_flatMap.mp member
  exact each x present y member

theorem intText_encodable {value : Int} {text : Str} (written : intText value = .ok text) :
    text.Encodable := by
  intro x member
  obtain ⟨character, rfl, -⟩ := (intText_numerals written).2 x member
  exact ⟨character, rfl⟩

theorem commaSeparated_encodable {texts : List Str} (each : ∀ text ∈ texts, text.Encodable) :
    (commaSeparated texts).Encodable := by
  induction texts with
  | nil => simp [commaSeparated, Str.Encodable]
  | cons text texts inductionHypothesis =>
      have tail := inductionHypothesis fun text member => each text (by simp [member])
      cases texts with
      | nil => exact each text (by simp)
      | cons next texts =>
          have listed : commaSeparated (text :: next :: texts) =
              text ++ ("," : Str) ++ commaSeparated (next :: texts) := rfl
          rw [listed, Str.encodable_append, Str.encodable_append]
          exact ⟨⟨each text (by simp), by decide⟩, tail⟩

end NetworkFinality.Python
