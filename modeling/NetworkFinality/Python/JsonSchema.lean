import NetworkFinality.Python.Json

/-!
# JSON schemas

A schema is a keyword, or a combination of schemas. `accepts` validates a document, which is
the Python value that `json.loads` makes of it. A keyword constrains the values it is about and
lets all others pass, as the specification has it; annotations such as `title`, `default` and
`format` constrain nothing and have no place here.

`covers` compares schemas: what it accepts of one, the other accepts, on documents without
`null`.
-/

namespace NetworkFinality.Python

/-- The values of the keyword `type`. -/
inductive Kind where
  | null
  | integer
  | string
  | array
  | object
deriving DecidableEq

/-- The value is of the kind. A number with a zero fraction is an integer. -/
def Kind.admits : Kind → Value → Bool
  | .null, .none => true
  | .integer, .int _ => true
  | .integer, .float (.finite value _) => value.den = 1
  | .string, .str _ => true
  | .array, .list _ => true
  | .object, .dict _ => true
  | _, _ => false

/-- The keywords that look at no schema. `only` is `additionalProperties: false` beside properties
of these names. -/
inductive Assertion where
  | type (kind : Kind)
  | const (text : Str)
  | enum (texts : List Str)
  | minLength (length : Nat)
  | minimum (bound : Int)
  | minItems (count : Nat)
  | required (names : List Str)
  | only (names : List Str)
deriving DecidableEq

private theorem any_known {texts : List Str} {text : Str} :
    (texts.any fun known => known = text) = true ↔ text ∈ texts := by
  simp

def Assertion.holds : Assertion → Value → Bool
  | .type kind, value => kind.admits value
  | .const text, .str text' => text' = text
  | .const _, _ => false
  | .enum texts, .str text => texts.any fun known => known = text
  | .enum _, _ => false
  | .minLength length, .str text => length ≤ text.length
  | .minimum bound, .int value => bound ≤ value
  | .minimum bound, .float (.finite value _) => (bound : Rat) ≤ value
  | .minItems count, .list items => count ≤ items.length
  | .required names, .dict items => names.all fun name => items.any fun item => item.1 = .str name
  | .only names, .dict items => items.all fun item => names.any fun name => item.1 = .str name
  | _, _ => true

inductive Schema where
  | check (assertion : Assertion)
  | items (schema : Schema)
  | properties (fields : List (Str × Schema))
  | anyOf (schemas : List Schema)
  | allOf (schemas : List Schema)

namespace Schema

mutual
/-- The schema accepts the document. -/
def accepts : Schema → Value → Bool
  | .check assertion, value => assertion.holds value
  | .items schema, .list values => values.all fun value => schema.accepts value
  | .properties fields, .dict members => acceptsFields fields members
  | .anyOf schemas, value => acceptsSome schemas value
  | .allOf schemas, value => acceptsEach schemas value
  | _, _ => true

def acceptsFields : List (Str × Schema) → List (Key × Value) → Bool
  | [], _ => true
  | (name, schema) :: fields, members =>
      (members.all fun member => member.1 ≠ .str name || schema.accepts member.2) &&
        acceptsFields fields members

def acceptsSome : List Schema → Value → Bool
  | [], _ => false
  | schema :: schemas, value => schema.accepts value || acceptsSome schemas value

def acceptsEach : List Schema → Value → Bool
  | [], _ => true
  | schema :: schemas, value => schema.accepts value && acceptsEach schemas value
end

@[simp] theorem accepts_check {assertion : Assertion} {value : Value} :
    (check assertion).accepts value = assertion.holds value := by rw [accepts]

@[simp] theorem accepts_items {schema : Schema} {values : List Value} :
    (items schema).accepts (.list values) ↔ ∀ value ∈ values, schema.accepts value := by
  rw [accepts, List.all_eq_true]

@[simp] theorem accepts_properties {fields : List (Str × Schema)} {members : List (Key × Value)} :
    (properties fields).accepts (.dict members) ↔
      ∀ field ∈ fields, ∀ member ∈ members, member.1 = .str field.1 →
        field.2.accepts member.2 := by
  rw [accepts]
  induction fields with
  | nil => simp [acceptsFields]
  | cons field fields inductionHypothesis =>
      obtain ⟨name, schema⟩ := field
      simp only [acceptsFields, Bool.and_eq_true, inductionHypothesis, List.all_eq_true,
        List.forall_mem_cons, Bool.or_eq_true, decide_eq_true_eq, ne_eq, Decidable.imp_iff_not_or]

@[simp] theorem accepts_anyOf {schemas : List Schema} {value : Value} :
    (anyOf schemas).accepts value ↔ ∃ schema ∈ schemas, schema.accepts value := by
  rw [accepts]
  induction schemas with
  | nil => simp [acceptsSome]
  | cons schema schemas inductionHypothesis => simp [acceptsSome, inductionHypothesis]

@[simp] theorem accepts_allOf {schemas : List Schema} {value : Value} :
    (allOf schemas).accepts value ↔ ∀ schema ∈ schemas, schema.accepts value := by
  rw [accepts]
  induction schemas with
  | nil => simp [acceptsEach]
  | cons schema schemas inductionHypothesis => simp [acceptsEach, inductionHypothesis]

end Schema

namespace Assertion

@[simp] theorem holds_required {names : List Str} {members : List (Key × Value)} :
    (required names).holds (.dict members) ↔
      ∀ name ∈ names, ∃ member ∈ members, member.1 = .str name := by
  simp [holds]

@[simp] theorem holds_only {names : List Str} {members : List (Key × Value)} :
    (only names).holds (.dict members) ↔
      ∀ member ∈ members, ∃ name ∈ names, member.1 = .str name := by
  simp [holds]

end Assertion

namespace Schema

/-! ### Common schemas -/

/-- Any text. -/
def text : Schema := .check (.type .string)

/-- A text of some length at least. -/
def textFrom (length : Nat) : Schema := .allOf [.check (.type .string), .check (.minLength length)]

/-- One of the texts. -/
def oneOf (texts : List Str) : Schema := .allOf [.check (.type .string), .check (.enum texts)]

/-- This text. -/
def constant (text : Str) : Schema := .allOf [.check (.type .string), .check (.const text)]

/-- An integer that is not negative. -/
def natural : Schema := .allOf [.check (.type .integer), .check (.minimum 0)]

/-- `null`, or what the schema accepts. -/
def nullable (schema : Schema) : Schema := .anyOf [schema, .check (.type .null)]

/-- A list of what the schema accepts. -/
def listOf (schema : Schema) : Schema := .allOf [.check (.type .array), .items schema]

/-- A list of some length at least. -/
def listFrom (count : Nat) (schema : Schema) : Schema :=
  .allOf [.listOf schema, .check (.minItems count)]

/-- An object with these properties, of which some are required. -/
def object (required : List Str) (fields : List (Str × Schema)) : Schema :=
  .allOf [.check (.type .object), .properties fields, .check (.required required)]

/-- An object with no other properties. -/
def closed (required : List Str) (fields : List (Str × Schema)) : Schema :=
  .allOf [.object required fields, .check (.only (fields.map (·.1)))]

theorem accepts_object {required : List Str} {fields : List (Str × Schema)}
    {members : List (Key × Value)} :
    (object required fields).accepts (.dict members) ↔
      (∀ field ∈ fields, ∀ member ∈ members, member.1 = .str field.1 →
        field.2.accepts member.2) ∧
      ∀ name ∈ required, ∃ member ∈ members, member.1 = .str name := by
  rw [object, accepts_allOf, List.forall_mem_cons, List.forall_mem_cons, List.forall_mem_singleton,
    accepts_properties, accepts_check, accepts_check, Assertion.holds_required]
  exact and_iff_right rfl

theorem accepts_closed {required : List Str} {fields : List (Str × Schema)} {value : Value} :
    (closed required fields).accepts value ↔
      (object required fields).accepts value ∧
        (Assertion.only (fields.map (·.1))).holds value := by
  rw [closed, accepts_allOf, List.forall_mem_cons, List.forall_mem_singleton, accepts_check]

/-! ### Documents with every property -/

mutual
/-- The schema with every property of its closed objects required. -/
def complete : Schema → Schema
  | .check (.only names) => .allOf [.check (.only names), .check (.required names)]
  | .check assertion => .check assertion
  | .items schema => .items schema.complete
  | .properties fields => .properties (completeFields fields)
  | .anyOf schemas => .anyOf (completeEach schemas)
  | .allOf schemas => .allOf (completeEach schemas)

def completeFields : List (Str × Schema) → List (Str × Schema)
  | [] => []
  | (name, schema) :: fields => (name, schema.complete) :: completeFields fields

def completeEach : List Schema → List Schema
  | [] => []
  | schema :: schemas => schema.complete :: completeEach schemas
end

theorem completeFields_eq (fields : List (Str × Schema)) :
    completeFields fields = fields.map fun field => (field.1, field.2.complete) := by
  induction fields with
  | nil => rfl
  | cons field fields inductionHypothesis =>
      rw [completeFields, inductionHypothesis, List.map_cons]

/-- A complete closed object has exactly the properties of its schema. -/
theorem accepts_complete_closed {required : List Str} {fields : List (Str × Schema)}
    {members : List (Key × Value)} (known : required ⊆ fields.map (·.1)) :
    (closed required fields).complete.accepts (.dict members) ↔
      (∀ field ∈ fields, ∀ member ∈ members, member.1 = .str field.1 →
        field.2.complete.accepts member.2) ∧
      (∀ field ∈ fields, ∃ member ∈ members, member.1 = .str field.1) ∧
      ∀ member ∈ members, ∃ field ∈ fields, member.1 = .str field.1 := by
  have unfolded : (closed required fields).complete.accepts (.dict members) ↔
      (object required (completeFields fields)).accepts (.dict members) ∧
        (∀ member ∈ members, ∃ field ∈ fields, member.1 = .str field.1) ∧
        ∀ field ∈ fields, ∃ member ∈ members, member.1 = .str field.1 := by
    simp [closed, object, complete, completeEach]
  rw [unfolded, accepts_object, completeFields_eq, List.forall_mem_map]
  constructor
  · rintro ⟨⟨each, -⟩, only, all⟩
    exact ⟨each, all, only⟩
  · rintro ⟨each, all, only⟩
    refine ⟨⟨each, fun name member => ?_⟩, only, all⟩
    obtain ⟨field, present, rfl⟩ := List.mem_map.mp (known member)
    exact all field present

end Schema

/-! ### Documents without `null` -/

namespace Value

mutual
/-- Nothing in the document is `null`. -/
def nullFree : Value → Bool
  | .none => false
  | .list values => nullFreeValues values
  | .dict members => nullFreeMembers members
  | _ => true

def nullFreeValues : List Value → Bool
  | [] => true
  | value :: values => value.nullFree && nullFreeValues values

def nullFreeMembers : List (Key × Value) → Bool
  | [] => true
  | (_, value) :: members => value.nullFree && nullFreeMembers members
end

theorem nullFree_list {values : List Value} :
    (list values).nullFree ↔ ∀ value ∈ values, value.nullFree := by
  rw [nullFree]
  induction values with
  | nil => simp [nullFreeValues]
  | cons value values inductionHypothesis => simp [nullFreeValues, inductionHypothesis]

theorem nullFree_dict {members : List (Key × Value)} :
    (dict members).nullFree ↔ ∀ member ∈ members, member.2.nullFree := by
  rw [nullFree]
  induction members with
  | nil => simp [nullFreeMembers]
  | cons member members inductionHypothesis =>
      obtain ⟨key, value⟩ := member
      simp [nullFreeMembers, inductionHypothesis]

end Value

/-! ### Comparing schemas -/

/-- The first assertion implies the second, which is the same keyword. -/
def Assertion.implies : Assertion → Assertion → Bool
  | .type kind, .type kind' => kind = kind'
  | .const text, .const text' => text = text'
  | .enum texts, .enum texts' => texts.all fun text => texts'.any fun known => known = text
  | .minLength length, .minLength length' => length' ≤ length
  | .minimum bound, .minimum bound' => bound' ≤ bound
  | .minItems count, .minItems count' => count' ≤ count
  | .only names, .only names' => names.all fun name => names'.any fun known => known = name
  | _, _ => false

theorem Assertion.holds_of_implies {narrow wide : Assertion} {value : Value}
    (implied : narrow.implies wide) (held : narrow.holds value) : wide.holds value := by
  cases narrow <;> cases wide <;> simp only [implies, reduceCtorEq, decide_eq_true_eq,
    List.all_eq_true, any_known] at implied
  case type.type | const.const =>
    subst implied
    exact held
  case enum.enum | minLength.minLength | minItems.minItems =>
    cases value <;> simp only [holds, decide_eq_true_eq, any_known, reduceCtorEq] at held ⊢
    first
      | exact implied _ held
      | exact implied.trans held
  case minimum.minimum =>
    rcases value with _ | _ | _ | ⟨_ | _ | _ | _⟩ | _ | _ | _ | _ | _ | _ <;>
      simp only [holds, decide_eq_true_eq] at held ⊢
    · exact implied.trans held
    · exact (Rat.intCast_le_intCast.mpr implied).trans held
  case only.only =>
    cases value with
    | dict members =>
        rw [holds_only] at held ⊢
        intro member present
        obtain ⟨name, known, named⟩ := held member present
        exact ⟨name, implied name known, named⟩
    | _ => rfl

namespace Schema

/-- The conjuncts of a schema. On documents without `null`, a nullable schema is one. -/
def parts (filled : Bool) : Nat → Schema → List Schema
  | fuel + 1, .allOf schemas => schemas.flatMap fun schema => parts filled fuel schema
  | fuel + 1, .anyOf [schema, .check (.type .null)] =>
      if filled then parts filled fuel schema else [nullable schema]
  | _, schema => [schema]

theorem accepts_parts {filled : Bool} {fuel : Nat} {schema part : Schema} {value : Value}
    (nullFree : filled → value.nullFree) (accepted : schema.accepts value)
    (member : part ∈ schema.parts filled fuel) : part.accepts value := by
  fun_induction parts filled fuel schema with
  | case1 fuel schemas inductionHypothesis =>
      obtain ⟨schema, known, member⟩ := List.mem_flatMap.mp member
      exact inductionHypothesis schema (accepts_allOf.mp accepted schema known) member
  | case2 fuel schema isFilled inductionHypothesis =>
      refine inductionHypothesis ?_ member
      obtain ⟨option, known, admitted⟩ := accepts_anyOf.mp accepted
      rcases List.mem_pair.mp known with rfl | rfl
      · exact admitted
      · have present := nullFree isFilled
        cases value <;> simp [Assertion.holds, Kind.admits, Value.nullFree] at admitted present
  | case3 | case4 =>
      obtain rfl := List.mem_singleton.mp member
      exact accepted

/-- What the schema says of the values under a name. -/
def under (name : Str) : Schema → List Schema
  | .properties fields => fields.filterMap fun field =>
      if field.1 = name then some field.2 else none
  | _ => []

theorem accepts_under {part schema : Schema} {name : Str} {members : List (Key × Value)}
    (accepted : part.accepts (.dict members)) (listed : schema ∈ part.under name)
    {member : Key × Value} (present : member ∈ members) (named : member.1 = .str name) :
    schema.accepts member.2 := by
  cases part with
  | properties fields =>
      obtain ⟨field, known, same⟩ := List.mem_filterMap.mp listed
      split at same
      case isTrue matching =>
        obtain rfl := Option.some.inj same
        exact accepts_properties.mp accepted field known member present (matching ▸ named)
      case isFalse => cases same
  | _ => cases listed

/-- What the schema says of the values in a list. -/
def inside : Schema → List Schema
  | .items schema => [schema]
  | _ => []

theorem accepts_inside {part schema : Schema} {values : List Value}
    (accepted : part.accepts (.list values)) (listed : schema ∈ part.inside) {value : Value}
    (present : value ∈ values) : schema.accepts value := by
  cases part with
  | items schema' =>
      obtain rfl := List.mem_singleton.mp listed
      exact accepts_items.mp accepted value present
  | _ => cases listed

/-- The schema requires a property of the name. -/
def requires (name : Str) : Schema → Bool
  | .check (.required names) => names.any fun known => known = name
  | _ => false

theorem exists_of_requires {part : Schema} {name : Str} {members : List (Key × Value)}
    (accepted : part.accepts (.dict members)) (requires : part.requires name) :
    ∃ member ∈ members, member.1 = .str name := by
  unfold Schema.requires at requires
  split at requires
  case h_1 names =>
    rw [accepts_check, Assertion.holds_required] at accepted
    exact accepted name (any_known.mp requires)
  case h_2 => cases requires

/-- The schema makes the assertion. -/
def asserts (assertion : Assertion) : Schema → Bool
  | .check narrow => narrow.implies assertion
  | _ => false

theorem holds_of_asserts {part : Schema} {assertion : Assertion} {value : Value}
    (accepted : part.accepts value) (asserts : part.asserts assertion) : assertion.holds value := by
  cases part with
  | check narrow =>
      rw [accepts_check] at accepted
      exact Assertion.holds_of_implies asserts accepted
  | _ => cases asserts

/-- What all of the schemas accept, the other accepts, on documents without `null`. -/
def covers : Nat → List Schema → Schema → Bool
  | 0, _, _ => false
  | fuel + 1, given, wide =>
      let given' := given.flatMap (parts true fuel)
      match wide with
      | .allOf schemas => schemas.all fun schema => covers fuel given schema
      | .anyOf schemas => schemas.any fun schema => covers fuel given schema
      | .properties fields => fields.all fun field =>
          covers fuel (given'.flatMap (under field.1)) field.2
      | .items schema => covers fuel (given'.flatMap inside) schema
      | .check (.required names) => names.all fun name => given'.any (requires name)
      | .check assertion => given'.any (asserts assertion)

theorem accepts_of_covers {fuel : Nat} {given : List Schema} {wide : Schema} {value : Value}
    (covered : covers fuel given wide) (filled : value.nullFree)
    (accepted : ∀ schema ∈ given, schema.accepts value) : wide.accepts value := by
  induction fuel generalizing given wide value with
  | zero => simp [covers] at covered
  | succ fuel inductionHypothesis =>
      have conjuncts : ∀ part ∈ given.flatMap (parts true fuel),
          part.accepts value := by
        intro part member
        obtain ⟨schema, known, member⟩ := List.mem_flatMap.mp member
        exact accepts_parts (fun _ => filled) (accepted schema known) member
      unfold covers at covered
      dsimp only at covered
      split at covered
      case h_1 schemas =>
        rw [List.all_eq_true] at covered
        exact accepts_allOf.mpr fun schema known =>
          inductionHypothesis (covered schema known) filled accepted
      case h_2 schemas =>
        obtain ⟨schema, known, covered⟩ := List.any_eq_true.mp covered
        exact accepts_anyOf.mpr ⟨schema, known, inductionHypothesis covered filled accepted⟩
      case h_3 fields =>
        rw [List.all_eq_true] at covered
        cases value with
        | dict members =>
            rw [accepts_properties]
            intro field known member present named
            refine inductionHypothesis (covered field known)
              (Value.nullFree_dict.mp filled member present) fun schema listed => ?_
            obtain ⟨part, conjunct, listed⟩ := List.mem_flatMap.mp listed
            exact accepts_under (conjuncts part conjunct) listed present named
        | _ => rfl
      case h_4 schema =>
        cases value with
        | list values =>
            rw [accepts_items]
            intro value present
            refine inductionHypothesis covered (Value.nullFree_list.mp filled value present)
              fun schema listed => ?_
            obtain ⟨part, conjunct, listed⟩ := List.mem_flatMap.mp listed
            exact accepts_inside (conjuncts part conjunct) listed present
        | _ => rfl
      case h_5 names =>
        rw [List.all_eq_true] at covered
        rw [accepts_check]
        cases value with
        | dict members =>
            rw [Assertion.holds_required]
            intro name known
            obtain ⟨part, conjunct, required⟩ := List.any_eq_true.mp (covered name known)
            exact exists_of_requires (conjuncts part conjunct) required
        | _ => rfl
      case h_6 assertion _ =>
        obtain ⟨part, conjunct, asserted⟩ := List.any_eq_true.mp covered
        rw [accepts_check]
        exact holds_of_asserts (conjuncts part conjunct) asserted

/-- What all of the schemas accept has no `null` in it. -/
def excludesNull : Nat → List Schema → Bool
  | 0, _ => false
  | fuel + 1, given =>
      let given' := given.flatMap (parts false fuel)
      given'.any (asserts (.type .string)) || given'.any (asserts (.type .integer)) ||
        (given'.any (asserts (.type .array)) && excludesNull fuel (given'.flatMap inside)) ||
        (given'.any (asserts (.type .object)) && given'.any fun part =>
          match part with
          | .check (.only names) => names.all fun name =>
              excludesNull fuel (given'.flatMap (under name))
          | _ => false)

theorem nullFree_of_excludesNull {fuel : Nat} {given : List Schema} {value : Value}
    (excludes : excludesNull fuel given) (accepted : ∀ schema ∈ given, schema.accepts value) :
    value.nullFree := by
  induction fuel generalizing given value with
  | zero => simp [excludesNull] at excludes
  | succ fuel inductionHypothesis =>
      have conjuncts : ∀ part ∈ given.flatMap (parts false fuel), part.accepts value := by
        intro part member
        obtain ⟨schema, known, member⟩ := List.mem_flatMap.mp member
        exact accepts_parts (by rintro ⟨⟩) (accepted schema known) member
      have kind {kind : Kind} (asserted : (given.flatMap (parts false fuel)).any
          (asserts (.type kind))) : kind.admits value := by
        obtain ⟨part, conjunct, asserted⟩ := List.any_eq_true.mp asserted
        exact holds_of_asserts (conjuncts part conjunct) asserted
      rw [excludesNull, Bool.or_eq_true, Bool.or_eq_true, Bool.or_eq_true, Bool.and_eq_true,
        Bool.and_eq_true] at excludes
      rcases excludes with ((text | number) | ⟨array, inner⟩) | ⟨object, closing⟩
      · have admitted := kind text
        cases value <;> simp [Kind.admits, Value.nullFree] at admitted ⊢
      · have admitted := kind number
        cases value <;> simp [Kind.admits, Value.nullFree] at admitted ⊢
      · have admitted := kind array
        cases value with
        | list values =>
            rw [Value.nullFree_list]
            intro value present
            refine inductionHypothesis inner fun schema listed => ?_
            obtain ⟨part, conjunct, listed⟩ := List.mem_flatMap.mp listed
            exact accepts_inside (conjuncts part conjunct) listed present
        | _ => simp [Kind.admits] at admitted
      · have admitted := kind object
        cases value with
        | dict members =>
            rw [Value.nullFree_dict]
            intro member present
            obtain ⟨part, conjunct, closing⟩ := List.any_eq_true.mp closing
            split at closing
            case h_1 names =>
              have only := conjuncts _ conjunct
              rw [accepts_check, Assertion.holds_only] at only
              obtain ⟨name, known, named⟩ := only member present
              refine inductionHypothesis (List.all_eq_true.mp closing name known)
                fun schema listed => ?_
              obtain ⟨part, conjunct, listed⟩ := List.mem_flatMap.mp listed
              exact accepts_under (conjuncts part conjunct) listed present named
            case h_2 => cases closing
        | _ => simp [Kind.admits] at admitted

end Schema

end NetworkFinality.Python
