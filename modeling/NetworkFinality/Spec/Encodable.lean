import NetworkFinality.Spec.CanonicalForm

/-!
# Which values have canonical bytes

`_normalize` and the encoder are partial: floats outside the finite range, integers that
Python does not write, lone surrogates, timestamps without a UTC instant, keys that do
not compare and objects of other classes make them raise. `Value.Encodable` says, by
recursion into the value, that none of these occurs. A value has canonical bytes exactly
when it holds.
-/

namespace NetworkFinality

open Python

namespace Python

/-! ### Texts inside a text -/

theorem encodable_of_quote {text : Str} (encodable : (quote text).Encodable) : text.Encodable := by
  intro x member
  by_cases plain : x.Plain
  · refine encodable x ?_
    rw [quote, List.mem_append, List.mem_append]
    refine .inl (.inr (List.mem_flatMap.mpr ⟨x, member, ?_⟩))
    rw [escape_plain plain]
    exact List.mem_singleton_self x
  · have scalars : ∀ x ∈ escaped, ∃ value, x = .scalar value := by
      have encodable : Str.Encodable escaped := by decide +kernel
      exact encodable
    exact scalars x (mem_escaped plain)

theorem encodable_of_commaSeparated {texts : List Str} {text : Str} (member : text ∈ texts)
    (encodable : (commaSeparated texts).Encodable) : text.Encodable := by
  induction texts with
  | nil => cases member
  | cons first texts inductionHypothesis =>
      cases texts with
      | nil =>
          obtain rfl := List.mem_singleton.mp member
          exact encodable
      | cons next texts =>
          have listed : commaSeparated (first :: next :: texts) =
              first ++ ("," : Str) ++ commaSeparated (next :: texts) := rfl
          rw [listed, Str.encodable_append, Str.encodable_append] at encodable
          rcases List.mem_cons.mp member with rfl | later
          · exact encodable.1.1
          · exact inductionHypothesis later encodable.2

/-! ### Sorting -/

theorem perm_of_sortItems {α : Type} {items sorted : List (Key × α)}
    (sorting : sortItems items = .ok sorted) : sorted.Perm items := by
  unfold sortItems at sorting
  split at sorting
  · obtain rfl := Except.ok.inj sorting
    exact List.perm_insertionSort _ items
  · cases sorting

theorem mem_sortItems {α : Type} {items sorted : List (Key × α)}
    (sorting : sortItems items = .ok sorted) {item : Key × α} : item ∈ sorted ↔ item ∈ items :=
  (perm_of_sortItems sorting).mem_iff

/-- Python compares the keys with one another: there is at most one, or all are texts, or
all are numbers. -/
def Key.Sortable (keys : List Key) : Prop :=
  keys.length ≤ 1 ∨ (∀ key ∈ keys, key.isText = true) ∨ ∀ key ∈ keys, key.isNumeric = true

theorem sortItems_isOk_iff {α : Type} {items : List (Key × α)} :
    (∃ sorted, sortItems items = .ok sorted) ↔ Key.Sortable (items.map (·.1)) := by
  unfold sortItems Key.Sortable
  simp only [List.length_map, List.forall_mem_map, List.all_eq_true]
  split
  · simp_all
  · simp_all

theorem Key.Sortable.perm {keys keys' : List Key} (sortable : Sortable keys)
    (perm : keys'.Perm keys) : Sortable keys' := by
  rcases sortable with short | texts | numbers
  · exact .inl (perm.length_eq ▸ short)
  · exact .inr (.inl fun key member => texts key (perm.mem_iff.mp member))
  · exact .inr (.inr fun key member => numbers key (perm.mem_iff.mp member))

/-! ### Values -/

/-- A finite float whose text has a UTF-8 form. -/
def PyFloat.Encodable : PyFloat → Prop
  | .finite _ repr => repr.Encodable
  | _ => False

/-- A dict key that the encoder writes. -/
def Key.Encodable : Key → Prop
  | .str text => text.Encodable
  | .int value => value.natAbs < 10 ^ 4300
  | .bool _ => True
  | .float value => value.Encodable
  | .none => True
  | .other => False

namespace Value

/-- Nothing in the value keeps it from being normalized, written and encoded. -/
inductive Encodable : Value → Prop where
  | none : Encodable .none
  | bool (value : Bool) : Encodable (.bool value)
  | int {value : Int} (digits : value.natAbs < 10 ^ 4300) : Encodable (.int value)
  | float {value : PyFloat} (finite : value.Encodable) : Encodable (.float value)
  | str {text : Str} (encodable : text.Encodable) : Encodable (.str text)
  | enum {text : Str} (encodable : text.Encodable) : Encodable (.enum text)
  | datetime {time : AwareDateTime} {instant : DateTime} (utc : time.toUtc = .ok instant) :
      Encodable (.datetime time)
  | list {items : List Value} (each : ∀ item ∈ items, Encodable item) : Encodable (.list items)
  | dict {items : List (Key × Value)} (sortable : Key.Sortable (items.map (·.1)))
      (keys : ∀ item ∈ items, item.1.Encodable) (each : ∀ item ∈ items, Encodable item.2) :
      Encodable (.dict items)

/-- The value has a normal form, and this a text with a UTF-8 form. -/
def Written (value : Value) : Prop :=
  ∃ normal text, normalize value = .ok normal ∧ dumps normal = .ok text ∧ text.Encodable

end Value

/-! ### Numbers and keys -/

theorem exists_intText {value : Int} :
    (∃ text, intText value = .ok text) ↔ value.natAbs < 10 ^ 4300 := by
  unfold intText
  split
  · rename_i small
    exact ⟨fun _ => small, fun _ => ⟨_, rfl⟩⟩
  · rename_i large
    exact ⟨by rintro ⟨text, ⟨⟩⟩, fun small => absurd small large⟩

theorem floatText_encodable {value : PyFloat} :
    (∃ text, floatText value = .ok text ∧ text.Encodable) ↔ value.Encodable := by
  cases value <;> simp [floatText, PyFloat.Encodable]

/-- The encoder writes the key, and what it writes has a UTF-8 form. -/
theorem keyText_encodable {key : Key} :
    (∃ name, keyText key = .ok name ∧ name.Encodable) ↔ key.Encodable := by
  have quoted {text : Str} : (quote text).Encodable ↔ text.Encodable :=
    ⟨encodable_of_quote, quote_encodable⟩
  cases key with
  | str text => simp [keyText, Key.Encodable, quoted]
  | int value =>
      rw [Key.Encodable, ← exists_intText]
      simp only [keyText, bind_eq_ok, pure_eq_ok]
      constructor
      · rintro ⟨name, ⟨text, written, -⟩, -⟩
        exact ⟨text, written⟩
      · rintro ⟨text, written⟩
        exact ⟨_, ⟨text, written, rfl⟩, quoted.mpr (intText_encodable written)⟩
  | bool value =>
      have encodable : (boolText value).Encodable := by cases value <;> decide
      simp [keyText, Key.Encodable, quoted, encodable]
  | float value =>
      rw [Key.Encodable, ← floatText_encodable]
      simp only [keyText, bind_eq_ok, pure_eq_ok]
      constructor
      · rintro ⟨name, ⟨text, written, rfl⟩, encodable⟩
        exact ⟨text, written, quoted.mp encodable⟩
      · rintro ⟨text, written, encodable⟩
        exact ⟨_, ⟨text, written, rfl⟩, quoted.mpr encodable⟩
  | none =>
      have encodable : Str.Encodable ("null" : Str) := by decide
      simp [keyText, Key.Encodable, quoted, encodable]
  | other => simp [keyText, Key.Encodable]

/-! ### Lists -/

theorem dumpsList_ok {values : List Value} {texts : List Str} :
    dumpsList values = .ok texts ↔
      List.Forall₂ (fun value text => dumps value = .ok text) values texts := by
  induction values generalizing texts with
  | nil =>
      constructor
      · intro done
        obtain rfl := Except.ok.inj done
        exact .nil
      · rintro ⟨⟩
        rfl
  | cons value values inductionHypothesis =>
      simp only [dumpsList, bind_eq_ok, pure_eq_ok, inductionHypothesis]
      constructor
      · rintro ⟨text, first, rest, further, rfl⟩
        exact .cons first further
      · rintro (_ | ⟨first, further⟩)
        exact ⟨_, first, _, further, rfl⟩

private theorem written_items {items : List Value} :
    (∃ normals texts, List.Forall₂ (fun item normal => normalize item = .ok normal) items normals ∧
        List.Forall₂ (fun normal text => dumps normal = .ok text) normals texts ∧
        ∀ text ∈ texts, text.Encodable) ↔ ∀ item ∈ items, item.Written := by
  induction items with
  | nil =>
      simp only [List.not_mem_nil, false_implies, implies_true, iff_true]
      exact ⟨[], [], .nil, .nil, by simp⟩
  | cons item items inductionHypothesis =>
      rw [List.forall_mem_cons, ← inductionHypothesis]
      constructor
      · rintro ⟨_, _, _ | ⟨normal, normals⟩, _ | ⟨written, texts⟩, encodable⟩
        rw [List.forall_mem_cons] at encodable
        exact ⟨⟨_, _, normal, written, encodable.1⟩, _, _, normals, texts, encodable.2⟩
      · rintro ⟨⟨normal, text, normalized, written, encodable⟩, normals, texts, each, all, further⟩
        exact ⟨normal :: normals, text :: texts, .cons normalized each, .cons written all,
          List.forall_mem_cons.mpr ⟨encodable, further⟩⟩

/-- A list is written exactly when its items are. -/
theorem Value.written_list {items : List Value} :
    (Value.list items).Written ↔ ∀ item ∈ items, item.Written := by
  rw [← written_items]
  simp only [Value.Written, normalize, bind_eq_ok, pure_eq_ok, normalizeList_ok]
  constructor
  · rintro ⟨_, _, ⟨normals, each, rfl⟩, dumped, encodable⟩
    simp only [dumps, bind_eq_ok, pure_eq_ok, dumpsList_ok] at dumped
    obtain ⟨texts, all, rfl⟩ := dumped
    rw [Str.encodable_append, Str.encodable_append] at encodable
    exact ⟨normals, texts, each, all, fun text member =>
      encodable_of_commaSeparated member encodable.1.2⟩
  · rintro ⟨normals, texts, each, all, encodable⟩
    refine ⟨.list normals, ("[" : Str) ++ commaSeparated texts ++ ("]" : Str),
      ⟨normals, each, rfl⟩, ?_, ?_⟩
    · simp only [dumps, bind_eq_ok, pure_eq_ok]
      exact ⟨texts, dumpsList_ok.mpr all, rfl⟩
    · rw [Str.encodable_append, Str.encodable_append]
      exact ⟨⟨by decide, commaSeparated_encodable encodable⟩, by decide⟩

/-! ### Dicts -/

/-- An item of a dict as the encoder writes it. -/
def ItemText (item : Key × Value) (written : Key × Str) : Prop :=
  item.1 = written.1 ∧ ∃ name text, keyText item.1 = .ok name ∧ dumps item.2 = .ok text ∧
    written.2 = name ++ (":" : Str) ++ text

theorem dumpsItems_ok {items : List (Key × Value)} {texts : List (Key × Str)} :
    dumpsItems items = .ok texts ↔ List.Forall₂ ItemText items texts := by
  induction items generalizing texts with
  | nil =>
      constructor
      · intro done
        obtain rfl := Except.ok.inj done
        exact .nil
      · rintro ⟨⟩
        rfl
  | cons item items inductionHypothesis =>
      simp only [dumpsItems, bind_eq_ok, pure_eq_ok, inductionHypothesis]
      constructor
      · rintro ⟨name, named, text, first, rest, further, rfl⟩
        exact .cons ⟨rfl, name, text, named, first, rfl⟩ further
      · rintro (_ | ⟨⟨key, name, text, named, first, written⟩, further⟩)
        exact ⟨name, named, text, first, _, further, by rw [key, ← written]⟩

/-- The items of a dict whose keys can be sorted have a text exactly when each has. -/
private theorem dumps_sorted {items : List (Key × Value)}
    (sortable : Key.Sortable (items.map (·.1))) :
    (∃ text, dumps (.dict items) = .ok text ∧ text.Encodable) ↔
      ∀ item ∈ items, item.1.Encodable ∧ ∃ text, dumps item.2 = .ok text ∧ text.Encodable := by
  simp only [dumps, bind_eq_ok, pure_eq_ok, dumpsItems_ok]
  constructor
  · rintro ⟨_, ⟨texts, all, sorted, sorting, rfl⟩, encodable⟩ item member
    rw [Str.encodable_append, Str.encodable_append] at encodable
    obtain ⟨written, present, key, name, text, named, dumped, spelled⟩ :=
      forall₂_mem all.flip member
    have joined := encodable_of_commaSeparated
      (List.mem_map_of_mem ((mem_sortItems sorting).mpr present)) encodable.1.2
    rw [spelled, Str.encodable_append, Str.encodable_append] at joined
    exact ⟨keyText_encodable.mp ⟨name, named, joined.1.1⟩, text, dumped, joined.2⟩
  · intro each
    obtain ⟨texts, all⟩ := @forall₂_of_forall _ _
        (fun item written => ItemText item written ∧ written.2.Encodable) items <| by
      intro item member
      obtain ⟨key, text, dumped, encodable⟩ := each item member
      obtain ⟨name, named, encodable'⟩ := keyText_encodable.mpr key
      refine ⟨(item.1, name ++ (":" : Str) ++ text), ⟨rfl, name, text, named, dumped, rfl⟩, ?_⟩
      rw [Str.encodable_append, Str.encodable_append]
      exact ⟨⟨encodable', by decide⟩, encodable⟩
    have keys : texts.map (·.1) = items.map (·.1) :=
      forall₂_keys (fun _ _ written => written.1.1) all
    obtain ⟨sorted, sorting⟩ := sortItems_isOk_iff.mpr (keys ▸ sortable)
    refine ⟨("\x7b" : Str) ++ commaSeparated (sorted.map (·.2)) ++ ("\x7d" : Str),
      ⟨texts, all.imp fun _ _ => And.left, sorted, sorting, rfl⟩, ?_⟩
    rw [Str.encodable_append, Str.encodable_append]
    refine ⟨⟨by decide, commaSeparated_encodable ?_⟩, by decide⟩
    intro text member
    obtain ⟨written, present, rfl⟩ := List.mem_map.mp member
    obtain ⟨item, -, -, encodable⟩ := forall₂_mem all ((mem_sortItems sorting).mp present)
    exact encodable

/-- A dict is written exactly when its keys can be sorted and written, and its values are. -/
theorem Value.written_dict {items : List (Key × Value)} :
    (Value.dict items).Written ↔ Key.Sortable (items.map (·.1)) ∧
      ∀ item ∈ items, item.1.Encodable ∧ item.2.Written := by
  simp only [Value.Written, normalize, bind_eq_ok, pure_eq_ok, normalizeItems_ok]
  constructor
  · rintro ⟨_, text, ⟨_, early, normals, related, sorted, sorting, rfl⟩, dumped, encodable⟩
    have sortable := sortItems_isOk_iff.mp ⟨_, early⟩
    have perm := (perm_of_sortItems sorting).map (·.1)
    rw [NormalItem.keys related] at perm
    have each := (dumps_sorted (sortable.perm perm)).mp ⟨text, dumped, encodable⟩
    refine ⟨sortable, fun item member => ?_⟩
    obtain ⟨normal, present, same, normalized⟩ := forall₂_mem related.flip member
    obtain ⟨key, text, dumped, encodable⟩ := each normal ((mem_sortItems sorting).mpr present)
    exact ⟨same ▸ key, normal.2, text, normalized, dumped, encodable⟩
  · rintro ⟨sortable, each⟩
    obtain ⟨normals, all⟩ := @forall₂_of_forall _ _ (fun item normal => NormalItem item normal ∧
        ∃ text, dumps normal.2 = .ok text ∧ text.Encodable) items <| by
      intro item member
      obtain ⟨-, normal, text, normalized, dumped, encodable⟩ := each item member
      exact ⟨(item.1, normal), ⟨rfl, normalized⟩, text, dumped, encodable⟩
    have related : List.Forall₂ NormalItem items normals := all.imp fun _ _ => And.left
    obtain ⟨early, sorting⟩ := sortItems_isOk_iff.mpr sortable
    have keys := NormalItem.keys related
    obtain ⟨sorted, sorting'⟩ := sortItems_isOk_iff.mpr (keys ▸ sortable)
    have perm := (perm_of_sortItems sorting').map (·.1)
    rw [keys] at perm
    obtain ⟨text, dumped, encodable⟩ := (dumps_sorted (sortable.perm perm)).mpr <| by
      intro normal member
      obtain ⟨item, present, ⟨same, -⟩, written⟩ :=
        forall₂_mem all ((mem_sortItems sorting').mp member)
      exact ⟨same ▸ (each item present).1, written⟩
    exact ⟨.dict sorted, text, ⟨early, sorting, normals, related, sorted, sorting', rfl⟩, dumped,
      encodable⟩

/-- A value is written exactly when nothing in it keeps it from being so. -/
theorem Value.written_iff : ∀ value : Value, value.Written ↔ value.Encodable
  | .none => ⟨fun _ => .none, fun _ => ⟨.none, "null", rfl, rfl, by decide⟩⟩
  | .bool value => ⟨fun _ => .bool value, fun _ =>
      ⟨.bool value, boolText value, rfl, rfl, by cases value <;> decide⟩⟩
  | .int value => by
      constructor
      · rintro ⟨_, text, ⟨⟩, written, -⟩
        exact .int (exists_intText.mp ⟨text, written⟩)
      · rintro ⟨⟩
        obtain ⟨text, written⟩ := exists_intText.mpr ‹_›
        exact ⟨_, text, rfl, written, intText_encodable written⟩
  | .float value => by
      constructor
      · rintro ⟨_, text, ⟨⟩, written, encodable⟩
        exact .float (floatText_encodable.mp ⟨text, written, encodable⟩)
      · rintro ⟨⟩
        obtain ⟨text, written, encodable⟩ := floatText_encodable.mpr ‹_›
        exact ⟨_, text, rfl, written, encodable⟩
  | .str text => by
      constructor
      · rintro ⟨_, _, ⟨⟩, ⟨⟩, encodable⟩
        exact .str (encodable_of_quote encodable)
      · rintro ⟨⟩
        exact ⟨_, _, rfl, rfl, quote_encodable ‹_›⟩
  | .enum text => by
      constructor
      · rintro ⟨_, _, ⟨⟩, ⟨⟩, encodable⟩
        exact .enum (encodable_of_quote encodable)
      · rintro ⟨⟩
        exact ⟨_, _, rfl, rfl, quote_encodable ‹_›⟩
  | .datetime time => by
      simp only [Value.Written, normalize, bind_eq_ok, pure_eq_ok]
      constructor
      · rintro ⟨_, _, ⟨instant, utc, rfl⟩, -⟩
        exact .datetime utc
      · rintro ⟨⟩
        exact ⟨_, _, ⟨_, ‹_›, rfl⟩, rfl,
          quote_encodable (DateTime.isoformatMicroseconds_encodable _)⟩
  | .list items => by
      have inner : ∀ item ∈ items, (item.Written ↔ item.Encodable) :=
        fun item _ => written_iff item
      rw [written_list]
      constructor
      · intro each
        exact .list fun item member => (inner item member).mp (each item member)
      · rintro (_ | _ | _ | _ | _ | _ | _ | each | _) item member
        exact (inner item member).mpr (each item member)
  | .dict items => by
      have inner : ∀ item ∈ items, (item.2.Written ↔ item.2.Encodable) :=
        fun item _ => written_iff item.2
      rw [written_dict]
      constructor
      · rintro ⟨sortable, each⟩
        exact .dict sortable (fun item member => (each item member).1)
          fun item member => (inner item member).mp (each item member).2
      · rintro (_ | _ | _ | _ | _ | _ | _ | _ | ⟨sortable, keys, each⟩)
        exact ⟨sortable, fun item member => ⟨keys item member,
          (inner item member).mpr (each item member)⟩⟩
  | .other => by
      constructor
      · rintro ⟨_, text, ⟨⟩, ⟨⟩, -⟩
      · rintro ⟨⟩
termination_by value => sizeOf value
decreasing_by
  · have smaller := List.sizeOf_lt_of_mem ‹item ∈ items›
    simp only [Value.list.sizeOf_spec]
    omega
  · have smaller := List.sizeOf_lt_of_mem ‹item ∈ items›
    have part : sizeOf item.2 < sizeOf item := by
      cases item
      simp only [Prod.mk.sizeOf_spec]
      omega
    simp only [Value.dict.sizeOf_spec]
    omega

end Python

/-- Which values have canonical bytes. -/
theorem canonicalJsonBytes_isOk_iff {value : Value} :
    (∃ bytes, canonicalJsonBytes value = .ok bytes) ↔ value.Encodable := by
  rw [← Value.written_iff]
  simp only [canonicalJsonBytes, bind_eq_ok]
  constructor
  · rintro ⟨bytes, normal, normalized, text, dumped, encoded⟩
    exact ⟨normal, text, normalized, dumped, (Str.encode_isOk_iff text).mp ⟨bytes, encoded⟩⟩
  · rintro ⟨normal, text, normalized, dumped, encodable⟩
    obtain ⟨bytes, encoded⟩ := (Str.encode_isOk_iff text).mpr encodable
    exact ⟨bytes, normal, normalized, text, dumped, encoded⟩

theorem canonicalJsonBytes_error_iff {value : Value} :
    (∃ error, canonicalJsonBytes value = .error error) ↔ ¬ value.Encodable := by
  rw [← canonicalJsonBytes_isOk_iff]
  cases canonicalJsonBytes value <;> simp

section

variable [Hashlib]

/-- A digest is that of the canonical bytes, and fails where these do. -/
theorem digestValue_isOk_iff {value : Value} {algorithm : HashAlgorithm} :
    (∃ digest, digestValue value algorithm = .ok digest) ↔ value.Encodable := by
  rw [← canonicalJsonBytes_isOk_iff]
  simp only [digestValue, bind_eq_ok, pure_eq_ok]
  constructor
  · rintro ⟨digest, bytes, canonical, -⟩
    exact ⟨bytes, canonical⟩
  · rintro ⟨bytes, canonical⟩
    exact ⟨_, bytes, canonical, rfl⟩

theorem digestValue_error_iff {value : Value} {algorithm : HashAlgorithm} :
    (∃ error, digestValue value algorithm = .error error) ↔ ¬ value.Encodable := by
  rw [← digestValue_isOk_iff]
  cases digestValue value algorithm <;> simp

end

/-! ### JSON values -/

/-- Every integer in the value has a text: Python writes at most 4300 digits. -/
inductive Python.Value.Writable : Value → Prop where
  | none : Writable .none
  | bool (value : Bool) : Writable (.bool value)
  | int {value : Int} {text : Str} (written : intText value = .ok text) : Writable (.int value)
  | str (text : Str) : Writable (.str text)
  | list {items : List Value} (each : ∀ item ∈ items, Writable item) : Writable (.list items)
  | dict {items : List (Key × Value)} (each : ∀ item ∈ items, Writable item.2) :
      Writable (.dict items)

/-- Among JSON values only an integer that Python does not write stands in the way. -/
theorem Python.Value.Json.encodable {value : Value} (json : value.Json)
    (writable : value.Writable) : value.Encodable := by
  induction json with
  | none => exact .none
  | bool value => exact .bool value
  | int value =>
      obtain ⟨⟩ := writable
      exact .int (exists_intText.mp ⟨_, ‹_›⟩)
  | str encodable => exact .str encodable
  | list _ inductionHypothesis =>
      rcases writable with _ | _ | _ | _ | each | _
      exact .list fun item member => inductionHypothesis item member (each item member)
  | @dict items textual _ _ inductionHypothesis =>
      rcases writable with _ | _ | _ | _ | _ | each
      refine .dict (.inr (.inl ?_)) ?_ fun item member =>
        inductionHypothesis item member (each item member)
      · intro key member
        obtain ⟨item, present, rfl⟩ := List.mem_map.mp member
        obtain ⟨name, named, -⟩ := textual item present
        rw [named, Key.isText]
      · intro item member
        obtain ⟨name, named, encodable⟩ := textual item member
        rw [named]
        exact encodable

/-- Two JSON values have the same canonical bytes exactly when they are the same up to
the order of dict items: values that are the same have the same bytes, or none of them
has any, values with one byte string are the same, and only an integer that Python
refuses to write keeps a value from having bytes. -/
theorem canonicalJsonBytes_identifies {value value' : Value} (json : value.Json)
    (json' : value'.Json) :
    (value.Same value' → canonicalJsonBytes value = canonicalJsonBytes value') ∧
      (∀ bytes, canonicalJsonBytes value = .ok bytes → canonicalJsonBytes value' = .ok bytes →
        value.Same value') ∧
      (value.Writable → ∃ bytes, canonicalJsonBytes value = .ok bytes) := by
  refine ⟨?_, ?_, ?_⟩
  · intro same
    exact canonicalJsonBytes_of_agree ((agree_iff_same json json').mpr same)
  · intro bytes encoded encoded'
    exact (agree_iff_same json json').mp
      (agree_of_canonicalJsonBytes json.plain json'.plain encoded encoded')
  · intro writable
    exact canonicalJsonBytes_isOk_iff.mpr (json.encodable writable)

/-- A dict has one byte string in either order of its items, which is not that of a dict
with `True` in the place of `1`. -/
theorem canonicalJsonBytes_reordered :
    canonicalJsonBytes (.dict [Value.field "b" (.int 1), Value.field "a" (.list [.none])]) =
        canonicalJsonBytes (.dict [Value.field "a" (.list [.none]), Value.field "b" (.int 1)]) ∧
      ∃ bytes,
        canonicalJsonBytes (.dict [Value.field "b" (.int 1), Value.field "a" (.list [.none])]) =
          .ok bytes ∧
        canonicalJsonBytes (.dict [Value.field "a" (.list [.none]), Value.field "b" (.bool true)]) ≠
          .ok bytes := by
  have json : ∀ {left right : String} {value value' : Value},
      Str.ofString left ≠ Str.ofString right → value.Json → value'.Json →
      (Value.dict [Value.field left value, Value.field right value']).Json := by
    intro left right value value' different json json'
    refine .dict ?_ ?_ ?_
    · simp [Value.field, Str.encodable_ofString]
    · simpa [Value.field] using different
    · simpa [Value.field] using ⟨json, json'⟩
  have items : (Value.list [.none]).Json := .list (by simpa using Value.Json.none)
  have first := @json "b" "a" _ _ (by decide) (.int 1) items
  have second := @json "a" "b" _ _ (by decide) items (.int 1)
  have third := @json "a" "b" _ _ (by decide) items (.bool true)
  have same : (Value.dict [Value.field "b" (.int 1), Value.field "a" (.list [.none])]).Same
      (.dict [Value.field "a" (.list [.none]), Value.field "b" (.int 1)]) := by
    refine .dict (List.Perm.swap ..) fun key value value' member member' => ?_
    have names : Str.ofString "a" ≠ Str.ofString "b" := by decide
    simp only [Value.field, List.mem_cons, Prod.mk.injEq, List.not_mem_nil, or_false] at member member'
    rcases member with ⟨rfl, rfl⟩ | ⟨rfl, rfl⟩ <;> rcases member' with ⟨key, rfl⟩ | ⟨key, rfl⟩
    · exact absurd (Key.str.inj key).symm names
    · exact .int 1
    · exact items.same_refl
    · exact absurd (Key.str.inj key) names
  obtain ⟨bytes, encoded⟩ := (canonicalJsonBytes_identifies first second).2.2 <| .dict <| by
    simpa [Value.field] using ⟨@Value.Writable.int 1 "1" (by decide +kernel),
      .list (by simpa using .none)⟩
  refine ⟨(canonicalJsonBytes_identifies first second).1 same, bytes, encoded, fun encoded' => ?_⟩
  have impossible := (canonicalJsonBytes_identifies first third).2.1 bytes encoded encoded'
  cases impossible with
  | dict keys each =>
      cases each (.str "b") (.int 1) (.bool true) (by simp [Value.field]) (by simp [Value.field])

end NetworkFinality
