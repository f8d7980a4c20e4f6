import NetworkFinality.Model.Schemas
import NetworkFinality.Spec.Binding

/-!
# Schemas that describe dumps

A schema describes a dump when, with every property required, it accepts exactly the JSON
documents that have the canonical bytes of something dumped. Descriptions compose as schemas do,
so a model is described field by field.
-/

namespace NetworkFinality

open Python Schema

namespace Python.Value

theorem Agree.trans {first second third : Value} (left : first.Agree second)
    (right : second.Agree third) : first.Agree third := by
  obtain ⟨normal, normalized, middle⟩ := left
  obtain ⟨normal', middle', normalized'⟩ := right
  obtain rfl := Except.ok.inj (middle.symm.trans middle')
  exact ⟨normal, normalized, normalized'⟩

theorem Agree.symm {left right : Value} (agree : left.Agree right) : right.Agree left := by
  obtain ⟨normal, normalized, normalized'⟩ := agree
  exact ⟨normal, normalized', normalized⟩

theorem normalize_list_form {items : List Value} {normal : Value}
    (normalized : normalize (.list items) = .ok normal) : ∃ normals, normal = .list normals := by
  simp only [normalize, bind_eq_ok, pure_eq_ok] at normalized
  obtain ⟨normals, -, rfl⟩ := normalized
  exact ⟨normals, rfl⟩

theorem normalize_dict_form {items : List (Key × Value)} {normal : Value}
    (normalized : normalize (.dict items) = .ok normal) : ∃ normals, normal = .dict normals := by
  simp only [normalize, bind_eq_ok, pure_eq_ok] at normalized
  obtain ⟨_, -, _, -, normals, -, rfl⟩ := normalized
  exact ⟨normals, rfl⟩

/-- A value that is no container. -/
def Scalar : Value → Prop
  | .list _ | .dict _ => False
  | _ => True

/-- A JSON value agrees with a value of scalar normal form when it is that form. -/
theorem Json.agree_scalar {document value leaf : Value} (json : document.Json)
    (scalar : leaf.Scalar) (normalizes : normalize value = .ok leaf) :
    document.Agree value ↔ document = leaf := by
  constructor
  · rintro ⟨normal, normalized, normalized'⟩
    obtain rfl := Except.ok.inj (normalizes.symm.trans normalized')
    cases json with
    | list each =>
        obtain ⟨normals, rfl⟩ := normalize_list_form normalized
        exact scalar.elim
    | dict textual distinct each =>
        obtain ⟨normals, rfl⟩ := normalize_dict_form normalized
        exact scalar.elim
    | _ => exact Except.ok.inj normalized
  · rintro rfl
    refine ⟨document, ?_, normalizes⟩
    cases json with
    | list each => exact scalar.elim
    | dict textual distinct each => exact scalar.elim
    | _ => rfl

theorem json_str {text : String} : (Value.str (Str.ofString text)).Json :=
  .str (Str.encodable_ofString text)

theorem json_list {items : List Value} : (Value.list items).Json ↔ ∀ item ∈ items, item.Json := by
  constructor
  · rintro ⟨⟩
    assumption
  · exact .list

theorem json_dict {items : List (Key × Value)} : (Value.dict items).Json ↔
    (∀ item ∈ items, ∃ name, item.1 = .str name ∧ name.Encodable) ∧ (items.map (·.1)).Nodup ∧
      ∀ item ∈ items, item.2.Json := by
  constructor
  · rintro ⟨⟩
    exact ⟨‹_›, ‹_›, ‹_›⟩
  · rintro ⟨textual, distinct, each⟩
    exact .dict textual distinct each

/-- The value is an object with this property. -/
def Has (value : Value) (name : Str) (part : Value) : Prop :=
  ∃ members, value = .dict members ∧ (.str name, part) ∈ members

theorem Json.part {document : Value} (json : document.Json) {name : Str} {part : Value}
    (has : document.Has name part) : part.Json := by
  obtain ⟨members, rfl, member⟩ := has
  cases json with
  | dict textual distinct each => exact each _ member

/-- A JSON value that agrees with a dict is one with the same keys, and agrees under each. -/
theorem Json.agree_dict {document : Value} {items : List (Key × Value)} (json : document.Json)
    (textual : ∀ item ∈ items, ∃ name, item.1 = .str name) (distinct : (items.map (·.1)).Nodup) :
    document.Agree (.dict items) ↔ ∃ members, document = .dict members ∧
      (members.map (·.1)).Perm (items.map (·.1)) ∧
      ∀ key part value, (key, part) ∈ members → (key, value) ∈ items → part.Agree value := by
  cases json with
  | dict textual' distinct' each =>
      have names := fun item member => (textual' item member).imp fun _ => And.left
      rw [NetworkFinality.agree_dict names textual distinct' distinct]
      simp
  | _ =>
      refine iff_of_false ?_ (by simp)
      rintro ⟨normal, normalized, normalized'⟩
      obtain ⟨normals, rfl⟩ := normalize_dict_form normalized'
      simp [normalize] at normalized

/-- A JSON value agrees with a list of texts when it is that list. -/
theorem Json.agree_texts {document : Value} (json : document.Json) {texts : List Str} :
    document.Agree (.list (texts.map .str)) ↔ document = .list (texts.map .str) := by
  cases json with
  | list each =>
      rename_i items
      have pointwise : List.Forall₂ (fun item text => item.Agree (.str text)) items texts ↔
          List.Forall₂ (fun item text => item = Value.str text) items texts := by
        constructor
        · intro related
          refine List.forall₂_iff_zip.mpr ⟨related.length_eq, fun {item text} pair => ?_⟩
          have agree : item.Agree (.str text) := (List.forall₂_iff_zip.mp related).2 pair
          have scalar : (Value.str text).Scalar := trivial
          exact ((each item (List.of_mem_zip pair).1).agree_scalar scalar rfl).mp agree
        · intro related
          refine related.imp fun item text equal => ?_
          rw [equal, agree_str]
      rw [agree_list, List.forall₂_map_right_iff, pointwise, Value.list.injEq,
        ← List.forall₂_eq_eq_eq, List.forall₂_map_right_iff]
  | _ =>
      refine iff_of_false ?_ (by simp)
      rintro ⟨normal, normalized, normalized'⟩
      obtain ⟨normals, rfl⟩ := normalize_list_form normalized'
      simp [normalize, bind_eq_ok] at normalized

/-- What agrees has a `null` in both or in neither. -/
theorem Json.nullFree_agree {document value : Value} (json : document.Json) (plain : value.Plain)
    (agree : document.Agree value) : document.nullFree ↔ value.nullFree := by
  induction json generalizing value with
  | list each inductionHypothesis =>
      cases plain with
      | list each' =>
          rw [nullFree_list, nullFree_list]
          have related := agree_list.mp agree
          constructor
          · intro filled value listed
            obtain ⟨part, present, agree⟩ := forall₂_mem related listed
            exact (inductionHypothesis part present (each' value listed) agree).mp
              (filled part present)
          · intro filled part present
            obtain ⟨value, listed, agree⟩ := forall₂_mem related.flip present
            exact (inductionHypothesis part present (each' value listed) agree).mpr
              (filled value listed)
      | _ =>
          obtain ⟨normal, normalized, normalized'⟩ := agree
          obtain ⟨normals, rfl⟩ := normalize_list_form normalized
          simp [normalize, bind_eq_ok] at normalized'
  | dict textual distinct each inductionHypothesis =>
      cases plain with
      | dict textual' distinct' each' =>
          have names := fun item member => (textual item member).imp fun _ => And.left
          obtain ⟨keys, agree⟩ :=
            (NetworkFinality.agree_dict names textual' distinct distinct').mp agree
          rw [nullFree_dict, nullFree_dict]
          constructor
          · rintro filled ⟨key, value⟩ listed
            have found := keys.mem_iff.mpr (List.mem_map_of_mem (f := (·.1)) listed)
            obtain ⟨⟨_, part⟩, present, rfl⟩ := List.mem_map.mp found
            exact (inductionHypothesis _ present (each' _ listed) (agree _ _ _ present listed)).mp
              (filled _ present)
          · rintro filled ⟨key, part⟩ present
            have found := keys.mem_iff.mp (List.mem_map_of_mem (f := (·.1)) present)
            obtain ⟨⟨_, value⟩, listed, rfl⟩ := List.mem_map.mp found
            exact (inductionHypothesis _ present (each' _ listed) (agree _ _ _ present listed)).mpr
              (filled _ listed)
      | _ =>
          obtain ⟨normal, normalized, normalized'⟩ := agree
          obtain ⟨normals, rfl⟩ := normalize_dict_form normalized
          simp [normalize] at normalized'
  | none | bool | int | str =>
      obtain ⟨normal, normalized, normalized'⟩ := agree
      obtain rfl := Except.ok.inj normalized
      cases plain <;> simp [normalize, bind_eq_ok, nullFree] at normalized' ⊢

section

variable {document dump value part leaf : Value} {name : Str}

/-- What agrees with an object has a property where it has one, and the two agree. -/
theorem Json.has_part (json : document.Json) (plain : dump.Plain) (agree : document.Agree dump)
    (has : dump.Has name value) : ∃ part, document.Has name part ∧ part.Agree value := by
  obtain ⟨items, rfl, listed⟩ := has
  cases plain with
  | dict textual distinct each =>
      obtain ⟨members, rfl, keys, agree⟩ := (json.agree_dict textual distinct).mp agree
      have key := keys.mem_iff.mpr (List.mem_map_of_mem (f := (·.1)) listed)
      obtain ⟨⟨_, part⟩, present, rfl⟩ := List.mem_map.mp key
      exact ⟨part, ⟨members, rfl, present⟩, agree _ _ _ present listed⟩

theorem Json.agree_part (json : document.Json) (plain : dump.Plain) (agree : document.Agree dump)
    (has : dump.Has name value) (has' : document.Has name part) : part.Agree value := by
  obtain ⟨items, rfl, listed⟩ := has
  cases plain with
  | dict textual distinct each =>
      obtain ⟨members, rfl, -, agree⟩ := (json.agree_dict textual distinct).mp agree
      obtain ⟨_, same, present⟩ := has'
      obtain rfl := Value.dict.inj same
      exact agree _ _ _ present listed

theorem Json.has_scalar (json : document.Json) (plain : dump.Plain) (agree : document.Agree dump)
    (has : dump.Has name value) (scalar : leaf.Scalar) (normalizes : normalize value = .ok leaf) :
    document.Has name part ↔ part = leaf := by
  constructor
  · intro has'
    exact ((json.part has').agree_scalar scalar normalizes).mp
      (json.agree_part plain agree has has')
  · rintro rfl
    obtain ⟨found, has', agree⟩ := json.has_part plain agree has
    obtain rfl := ((json.part has').agree_scalar scalar normalizes).mp agree
    exact has'

end

end Python.Value

/-! ### Descriptions -/

/-- The schema, with every property required, accepts what agrees with a dump. -/
def Python.Schema.Describes {α : Type} (schema : Schema) (dump : α → Value) : Prop :=
  ∀ {document : Value}, document.Json →
    (schema.complete.accepts document ↔ ∃ x, document.Agree (dump x))

namespace Python.Schema

variable {α β : Type} {schema : Schema} {dump : α → Value}

/-- Another type dumps the same. -/
theorem Describes.map {dump' : β → Value} (make : α → β) (describes : schema.Describes dump)
    (all : Function.Surjective make) (same : ∀ x, dump' (make x) = dump x) :
    schema.Describes dump' := by
  intro document json
  rw [describes json, all.exists]
  simp only [same]

/-- A schema of texts describes what dumps such texts. -/
theorem describes_texts {permitted : Str → Prop} {value : α → Str}
    (accepts : ∀ document, document.Json → (schema.complete.accepts document ↔
      ∃ text, document = .str text ∧ permitted text))
    (values : ∀ text, permitted text ↔ ∃ x, value x = text)
    (normalizes : ∀ x, normalize (dump x) = .ok (.str (value x))) : schema.Describes dump := by
  intro document json
  have scalar (x : α) : document.Agree (dump x) ↔ document = .str (value x) :=
    json.agree_scalar trivial (normalizes x)
  simp only [accepts document json, values, scalar]
  constructor
  · rintro ⟨_, rfl, x, rfl⟩
    exact ⟨x, rfl⟩
  · rintro ⟨x, rfl⟩
    exact ⟨_, rfl, x, rfl⟩

theorem describes_text : text.Describes Value.str := by
  refine @describes_texts _ _ _ (fun _ => True) id (fun document _ => ?_) (by simp) fun _ => rfl
  cases document <;> simp [text, complete, Assertion.holds, Kind.admits]

theorem describes_textFrom {length : Nat} :
    (textFrom length).Describes fun text : MinStr length => .str text := by
  refine @describes_texts _ _ _ (fun text => length ≤ text.length ∧ text.Encodable) Subtype.val
    (fun document json => ?_) (fun text => ?_) fun _ => rfl
  · cases json <;> simp_all [textFrom, complete, completeEach, Assertion.holds, Kind.admits]
  · simp

theorem describes_constant {text : Str} : (constant text).Describes fun _ : Unit => .str text := by
  refine @describes_texts _ _ _ (· = text) (fun _ => text) (fun document _ => ?_)
    (fun other => ?_) fun _ => rfl
  · cases document <;> simp [constant, complete, completeEach, Assertion.holds, Kind.admits]
  · simp [eq_comm]

/-- The texts are the values of an enumeration. -/
theorem describes_oneOf {texts : List Str} (value : α → Str) (kinds : List α)
    (values : texts = kinds.map value) (all : ∀ kind, kind ∈ kinds)
    (normalizes : ∀ kind, normalize (dump kind) = .ok (.str (value kind))) :
    (oneOf texts).Describes dump := by
  refine @describes_texts _ _ _ (· ∈ texts) value (fun document _ => ?_) (fun text => ?_)
    normalizes
  · cases document <;> simp [oneOf, complete, completeEach, Assertion.holds, Kind.admits]
  · rw [values, List.mem_map]
    constructor
    · rintro ⟨kind, -, rfl⟩
      exact ⟨kind, rfl⟩
    · rintro ⟨kind, rfl⟩
      exact ⟨kind, all kind, rfl⟩

theorem describes_natural : natural.Describes fun number : Nat => .int number := by
  intro document json
  have scalar (number : Nat) : document.Agree (.int number) ↔ document = .int number :=
    json.agree_scalar trivial rfl
  simp only [scalar]
  cases json with
  | int value =>
      simp only [natural, complete, completeEach, accepts_allOf, List.forall_mem_cons,
        accepts_check, Assertion.holds, Kind.admits, decide_eq_true_eq, Value.int.injEq]
      constructor
      · rintro ⟨-, positive, -⟩
        exact ⟨value.toNat, (Int.toNat_of_nonneg positive).symm⟩
      · rintro ⟨number, rfl⟩
        exact ⟨trivial, Int.natCast_nonneg number, by simp⟩
  | _ => simp [natural, complete, completeEach, Assertion.holds, Kind.admits]

/-- What may be absent is `null` or described. -/
theorem describes_nullable (describes : schema.Describes dump) :
    (nullable schema).Describes (Value.optional dump) := by
  intro document json
  have absent : document.Agree .none ↔ document = .none := json.agree_scalar trivial rfl
  have admits : (check (.type .null)).accepts document ↔ document = .none := by
    cases document <;> simp [Assertion.holds, Kind.admits]
  simp only [nullable, complete, completeEach, accepts_anyOf, List.exists_mem_cons_iff,
    List.not_mem_nil, false_and, exists_false, or_false, admits, describes json, Option.exists,
    Value.optional, absent]
  exact or_comm

/-- As `describes_nullable`, through the integers. -/
theorem describes_nullable_natural : (nullable natural).Describes fun number : Option Nat =>
    Value.optional (fun value : Int => .int value)
      (number.bind fun value => some (value : Int)) := by
  intro document json
  rw [describes_nullable describes_natural json, Option.exists, Option.exists]
  rfl

theorem accepts_listOf_text {document : Value} :
    (listOf text).complete.accepts document ↔
      ∃ texts : List Str, document = .list (texts.map .str) := by
  cases document with
  | list items =>
      have texts : (∃ texts : List Str, items = texts.map .str) ↔
          ∀ item ∈ items, ∃ text, Value.str text = item := by
        have range := Set.ext_iff.mp (Set.range_list_map Value.str) items
        simpa only [Set.mem_range, Set.mem_ofPred_eq, eq_comm (b := items)] using range
      have admits (item : Value) : Kind.string.admits item ↔ ∃ text, Value.str text = item := by
        cases item <;> simp [Kind.admits]
      have kind : Kind.array.admits (.list items) := rfl
      simp only [listOf, text, complete, completeEach, accepts_allOf, List.forall_mem_cons,
        accepts_check, accepts_items, Assertion.holds, Value.list.injEq, texts, admits, kind]
      simp
  | _ => simp [listOf, complete, completeEach, Assertion.holds, Kind.admits]

theorem describes_listOf_text :
    (listOf text).Describes fun texts : List Str => .list (texts.map .str) := by
  intro document json
  rw [accepts_listOf_text]
  simp only [json.agree_texts]

theorem describes_listFrom_text {count : Nat} : (listFrom count text).Describes
    fun texts : {texts : List Str // count ≤ texts.length} => .list (texts.1.map .str) := by
  intro document json
  have counted : (listFrom count text).complete.accepts document ↔
      (listOf text).complete.accepts document ∧ (Assertion.minItems count).holds document := by
    simp [listFrom, complete, completeEach]
  rw [counted, accepts_listOf_text]
  simp only [json.agree_texts, Subtype.exists]
  constructor
  · rintro ⟨⟨texts, rfl⟩, enough⟩
    refine ⟨texts, ?_, rfl⟩
    simpa [Assertion.holds] using enough
  · rintro ⟨texts, enough, rfl⟩
    refine ⟨⟨texts, rfl⟩, ?_⟩
    simpa [Assertion.holds] using enough

/-! ### Objects -/

/-- The schemas of some properties describe the items of a dump. -/
structure DescribesFields (fields : List (Str × Schema)) (items : α → List (Key × Value)) :
    Prop where
  named : ∀ x, (items x).map (·.1) = fields.map fun field => .str field.1
  describes : ∀ {members : List (Key × Value)}, (Value.dict members).Json →
    ((∀ field ∈ fields, ∃ member ∈ members, member.1 = .str field.1 ∧
        field.2.complete.accepts member.2) ↔
      ∃ x, ∀ item ∈ items x, ∃ member ∈ members, member.1 = item.1 ∧ member.2.Agree item.2)

theorem describesFields_nil : DescribesFields [] fun _ : Unit => [] where
  named _ := rfl
  describes _ := by simp

theorem describesFields_cons {name : String} {fields : List (Str × Schema)}
    {items : β → List (Key × Value)} (head : schema.Describes dump)
    (tail : DescribesFields fields items) :
    DescribesFields ((Str.ofString name, schema) :: fields)
      fun x : α × β => Value.field name (dump x.1) :: items x.2 where
  named x := by rw [List.map_cons, List.map_cons, tail.named, Value.field]
  describes {members} json := by
    have first : (∃ member ∈ members, member.1 = .str (Str.ofString name) ∧
        schema.complete.accepts member.2) ↔
        ∃ x, ∃ member ∈ members, member.1 = .str (Str.ofString name) ∧
          member.2.Agree (dump x) := by
      cases json with
      | dict textual distinct each =>
          constructor
          · rintro ⟨member, present, named, accepted⟩
            obtain ⟨x, agree⟩ := (head (each member present)).mp accepted
            exact ⟨x, member, present, named, agree⟩
          · rintro ⟨x, member, present, named, agree⟩
            exact ⟨member, present, named, (head (each member present)).mpr ⟨x, agree⟩⟩
    rw [List.forall_mem_cons, first, tail.describes json]
    simp only [List.forall_mem_cons, Value.field]
    constructor
    · rintro ⟨⟨x, agree⟩, y, rest⟩
      exact ⟨(x, y), agree, rest⟩
    · rintro ⟨⟨x, y⟩, agree, rest⟩
      exact ⟨⟨x, agree⟩, y, rest⟩

/-- A closed object describes a dict with one item for each of its properties. -/
theorem describes_closed {required : List Str} {fields : List (Str × Schema)}
    {items : α → List (Key × Value)} (known : required ⊆ fields.map (·.1))
    (distinct : (fields.map (·.1)).Nodup) (described : DescribesFields fields items) :
    (closed required fields).Describes fun x => .dict (items x) := by
  intro document json
  have textual (x : α) : ∀ item ∈ items x, ∃ name, item.1 = .str name := by
    intro item member
    have key : item.1 ∈ fields.map fun field => Key.str field.1 :=
      described.named x ▸ List.mem_map_of_mem member
    obtain ⟨field, -, same⟩ := List.mem_map.mp key
    exact ⟨field.1, same.symm⟩
  have distinct' (x : α) : ((items x).map (·.1)).Nodup := by
    have keys : (fields.map fun field => Key.str field.1) = (fields.map (·.1)).map .str := by simp
    rw [described.named, keys]
    exact distinct.map fun _ _ => Key.str.inj
  simp only [json.agree_dict (textual _) (distinct' _)]
  have plain := json
  cases json with
  | dict textual' unique each =>
      rename_i members
      simp only [accepts_complete_closed known, Value.dict.injEq, exists_eq_left']
      constructor
      · rintro ⟨accepted, all, only⟩
        obtain ⟨x, agree⟩ := (described.describes plain).mp fun field listed => by
          obtain ⟨member, present, named⟩ := all field listed
          exact ⟨member, present, named, accepted field listed member present named⟩
        refine ⟨x, (List.perm_ext_iff_of_nodup unique (distinct' x)).mpr fun key => ?_, ?_⟩
        · rw [described.named, List.mem_map, List.mem_map]
          constructor
          · rintro ⟨member, present, rfl⟩
            obtain ⟨field, listed, named⟩ := only member present
            exact ⟨field, listed, named.symm⟩
          · rintro ⟨field, listed, rfl⟩
            obtain ⟨member, present, named⟩ := all field listed
            exact ⟨member, present, named⟩
        · intro key part value present listed
          obtain ⟨member, present', named, agree⟩ := agree _ listed
          obtain rfl := List.inj_on_of_nodup_map unique present' present named
          exact agree
      · rintro ⟨x, keys, agree⟩
        have found (item) (listed : item ∈ items x) :
            ∃ member ∈ members, member.1 = item.1 ∧ member.2.Agree item.2 := by
          have key := keys.mem_iff.mpr (List.mem_map_of_mem (f := (·.1)) listed)
          obtain ⟨member, present, named⟩ := List.mem_map.mp key
          exact ⟨member, present, named, agree _ _ _ present (named ▸ listed)⟩
        have all := (described.describes plain).mpr ⟨x, found⟩
        refine ⟨fun field listed member present named => ?_, fun field listed => ?_,
          fun member present => ?_⟩
        · obtain ⟨member', present', named', accepted⟩ := all field listed
          obtain rfl := List.inj_on_of_nodup_map unique present' present (named'.trans named.symm)
          exact accepted
        · obtain ⟨member, present, named, -⟩ := all field listed
          exact ⟨member, present, named⟩
        · have key := keys.mem_iff.mp (List.mem_map_of_mem (f := (·.1)) present)
          rw [described.named] at key
          obtain ⟨field, listed, named⟩ := List.mem_map.mp key
          exact ⟨field, listed, named.symm⟩
  | _ => simp [closed, object, complete, completeEach, Assertion.holds, Kind.admits]

/-- A closed object describes a model that is built from the items of its dump. -/
theorem describes_model {required : List Str} {fields : List (Str × Schema)}
    {items : α → List (Key × Value)} {modelDump : β → Value}
    (described : DescribesFields fields items) (make : α → β) (all : Function.Surjective make)
    (same : ∀ x, modelDump (make x) = .dict (items x)) (known : required ⊆ fields.map (·.1))
    (distinct : (fields.map (·.1)).Nodup) : (closed required fields).Describes modelDump :=
  Describes.map make (describes_closed known distinct described) all same

end Python.Schema

end NetworkFinality
