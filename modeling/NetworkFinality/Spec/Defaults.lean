import NetworkFinality.Model.Defaults
import NetworkFinality.Spec.Schemas

/-!
# Defaults conform to the schema

Filling in the defaults makes a document complete: the schema with every property required
accepts the result exactly when the schema accepts the document.
-/

namespace NetworkFinality

open Python Schema

namespace Property

variable {property : Property} {properties : List Property} {members : List (Key × Value)}

theorem mem_item (distinct : (members.map (·.1)).Nodup) {item : Key × Value} :
    item ∈ property.item members ↔ item.1 = .str property.name ∧
      ((∃ value, (.str property.name, value) ∈ members ∧ item.2 = property.fill value) ∨
        (∀ member ∈ members, member.1 ≠ .str property.name) ∧
          property.default = some item.2) := by
  obtain ⟨key, value⟩ := item
  rw [Property.item]
  split
  case h_1 member found =>
    obtain ⟨key', value'⟩ := member
    have named : key' = .str property.name := by simpa using List.find?_some found
    have present := List.mem_of_find?_eq_some found
    subst named
    rw [List.mem_singleton, Prod.mk.injEq]
    refine and_congr_right fun _ => ?_
    constructor
    · rintro rfl
      exact .inl ⟨value', present, rfl⟩
    · rintro (⟨_, present', rfl⟩ | ⟨absent, -⟩)
      · have same := List.inj_on_of_nodup_map distinct present' present rfl
        rw [(Prod.mk.inj same).2]
      · exact absurd rfl (absent _ present)
  case h_2 missing =>
    have absent : ∀ member ∈ members, member.1 ≠ .str property.name := by
      simpa using missing
    simp only [List.mem_map, Option.mem_toList, Prod.mk.injEq]
    constructor
    · rintro ⟨_, given, rfl, rfl⟩
      exact ⟨rfl, .inr ⟨absent, given⟩⟩
    · rintro ⟨rfl, ⟨_, present, -⟩ | ⟨-, given⟩⟩
      · exact absurd rfl (absent _ present)
      · exact ⟨value, given, rfl, rfl⟩

theorem keys_item : ((property.item members).map (·.1)).Sublist [.str property.name] := by
  rw [item]
  split
  case h_1 => exact .refl _
  case h_2 =>
    cases property.default with
    | none => exact List.nil_sublist _
    | some value => exact .refl _

theorem keys_filled (names : (properties.map (·.name)).Nodup)
    (distinct : (members.map (·.1)).Nodup) : ((filled properties members).map (·.1)).Nodup := by
  have keys : ((properties.flatMap fun property => property.item members).map (·.1)).Sublist
      ((properties.map (·.name)).map .str) := by
    induction properties with
    | nil => exact .refl _
    | cons property properties inductionHypothesis =>
        rw [List.flatMap_cons, List.map_append]
        exact keys_item.append (inductionHypothesis (List.nodup_cons.mp names).2)
  have injective : Function.Injective Key.str := fun _ _ => Key.str.inj
  rw [filled, List.map_append, List.nodup_append]
  refine ⟨keys.nodup (names.map injective), ?_, ?_⟩
  · exact (List.filter_sublist.map _).nodup distinct
  · rintro key known key' unknown rfl
    obtain ⟨name, listed, rfl⟩ := List.mem_map.mp (keys.subset known)
    obtain ⟨property, present, rfl⟩ := List.mem_map.mp listed
    obtain ⟨member, rest, same⟩ := List.mem_map.mp unknown
    have fresh := (List.mem_filter.mp rest).2
    simp only [List.all_eq_true, decide_eq_true_eq] at fresh
    exact fresh property present same

/-- An attribute is there when it was, or else when it has a default. -/
theorem mem_filled (names : (properties.map (·.name)).Nodup) (distinct : (members.map (·.1)).Nodup)
    (known : property ∈ properties) {value : Value} :
    (.str property.name, value) ∈ filled properties members ↔
      (∃ given, (.str property.name, given) ∈ members ∧ value = property.fill given) ∨
        (∀ member ∈ members, member.1 ≠ .str property.name) ∧ property.default = some value := by
  have own : (.str property.name, value) ∈ filled properties members ↔
      (.str property.name, value) ∈ property.item members := by
    rw [filled, List.mem_append, List.mem_flatMap]
    constructor
    · rintro (⟨property', known', listed⟩ | rest)
      · have same := Key.str.inj ((mem_item distinct).mp listed).1
        obtain rfl := List.inj_on_of_nodup_map names known known' same
        exact listed
      · have fresh := (List.mem_filter.mp rest).2
        simp only [List.all_eq_true, decide_eq_true_eq] at fresh
        exact absurd rfl (fresh property known)
    · intro listed
      exact .inl ⟨property, known, listed⟩
  rw [own, mem_item distinct]
  exact and_iff_right rfl

/-- The other items are those of the document. -/
theorem mem_filled_of_ne {key : Key} {value : Value} (distinct : (members.map (·.1)).Nodup)
    (fresh : ∀ property ∈ properties, key ≠ .str property.name) :
    (key, value) ∈ filled properties members ↔ (key, value) ∈ members := by
  rw [filled, List.mem_append, List.mem_flatMap, List.mem_filter]
  constructor
  · rintro (⟨property, known, listed⟩ | ⟨present, -⟩)
    · exact absurd ((mem_item distinct).mp listed).1 (fresh property known)
    · exact present
  · intro present
    exact .inr ⟨present, by simpa using fresh⟩

end Property

/-- What a document with the defaults has under the name of an attribute. -/
theorem Python.Value.Json.has_fill {document value : Value} {properties : List Property}
    {property : Property} (json : document.Json) (names : (properties.map (·.name)).Nodup)
    (known : property ∈ properties) :
    (document.fill properties).Has property.name value ↔
      (∃ given, document.Has property.name given ∧ value = property.fill given) ∨
        (∃ members, document = .dict members ∧
          ∀ member ∈ members, member.1 ≠ .str property.name) ∧ property.default = some value := by
  cases json with
  | @dict members textual unique each =>
      simp only [Value.Has, Value.fill, Value.dict.injEq, exists_eq_left',
        Property.mem_filled names unique known]
  | _ => simp [Value.Has, Value.fill]

/-! ### Completion -/

/-- A document conforms when the complete schema accepts it with its defaults. -/
structure Python.Schema.Completes (schema : Schema) (fill : Value → Value) : Prop where
  json : ∀ {document : Value}, document.Json → (fill document).Json
  accepts : ∀ {document : Value}, document.Json →
    (schema.complete.accepts (fill document) ↔ schema.accepts document)

/-- The attribute has the schema, and so has its default. -/
structure Property.Fits (property : Property) (field : Str × Schema) : Prop where
  named : property.name = field.1
  encodable : property.name.Encodable
  completes : field.2.Completes property.fill
  default : ∀ value, property.default = some value → value.Json ∧ field.2.complete.accepts value

/-- The attributes of a model fit the properties of its schema, which requires those without a
default. -/
structure Property.Conform (properties : List Property) (required : List Str)
    (fields : List (Str × Schema)) : Prop where
  fits : List.Forall₂ Fits properties fields
  needed : required = properties.filterMap fun property =>
    if property.default.isNone then some property.name else none
  distinct : (properties.map (·.name)).Nodup

namespace Property.Conform

variable {properties : List Property} {required : List Str} {fields : List (Str × Schema)}
  {members : List (Key × Value)} (conform : Conform properties required fields)

include conform

theorem exists_property {field : Str × Schema} (listed : field ∈ fields) :
    ∃ property ∈ properties, property.Fits field :=
  forall₂_mem conform.fits listed

theorem exists_field {property : Property} (known : property ∈ properties) :
    ∃ field ∈ fields, property.Fits field :=
  forall₂_mem conform.fits.flip known

theorem mem_required {name : Str} : name ∈ required ↔
    ∃ property ∈ properties, property.default = none ∧ property.name = name := by
  rw [conform.needed, List.mem_filterMap]
  simp only [Option.ite_none_right_eq_some, Option.isNone_iff_eq_none, Option.some.injEq]

theorem required_subset : required ⊆ fields.map (·.1) := by
  intro name member
  obtain ⟨property, known, -, rfl⟩ := conform.mem_required.mp member
  obtain ⟨field, listed, fit⟩ := conform.exists_field known
  exact fit.named ▸ List.mem_map_of_mem listed

/-- A key that is no attribute's is one of no property. -/
theorem fresh_or_field (key : Key) : (∀ property ∈ properties, key ≠ .str property.name) ∨
    ∃ property ∈ properties, ∃ field ∈ fields, property.Fits field ∧ key = .str property.name := by
  by_cases fresh : ∀ property ∈ properties, key ≠ .str property.name
  · exact .inl fresh
  · simp only [ne_eq, not_forall, not_not] at fresh
    obtain ⟨property, known, named⟩ := fresh
    obtain ⟨field, listed, fit⟩ := conform.exists_field known
    exact .inr ⟨property, known, field, listed, fit, named⟩

theorem json_filled (json : (Value.dict members).Json) :
    (Value.dict (filled properties members)).Json := by
  cases json with
  | dict textual unique each =>
      refine .dict ?_ (keys_filled conform.distinct unique) ?_
      · rintro ⟨key, value⟩ listed
        rcases conform.fresh_or_field key with fresh | ⟨property, known, field, -, fit, rfl⟩
        · exact textual _ ((mem_filled_of_ne unique fresh).mp listed)
        · exact ⟨property.name, rfl, fit.encodable⟩
      · rintro ⟨key, value⟩ listed
        rcases conform.fresh_or_field key with fresh | ⟨property, known, field, -, fit, rfl⟩
        · exact each _ ((mem_filled_of_ne unique fresh).mp listed)
        · rcases (mem_filled conform.distinct unique known).mp listed with
            ⟨given, present, rfl⟩ | ⟨-, defaulted⟩
          · exact fit.completes.json (each _ present)
          · exact (fit.default value defaulted).1

/-- Defaults are accepted, and what was there is accepted when it was before. -/
theorem values_iff (unique : (members.map (·.1)).Nodup)
    (each : ∀ member ∈ members, member.2.Json) :
    (∀ field ∈ fields, ∀ member ∈ filled properties members, member.1 = .str field.1 →
        field.2.complete.accepts member.2) ↔
      ∀ field ∈ fields, ∀ member ∈ members, member.1 = .str field.1 →
        field.2.accepts member.2 := by
  refine forall₂_congr fun field listed => ?_
  obtain ⟨property, known, fit⟩ := conform.exists_property listed
  rw [← fit.named]
  constructor
  · rintro accepted ⟨_, given⟩ present rfl
    have kept := (mem_filled conform.distinct unique known).mpr (.inl ⟨given, present, rfl⟩)
    exact (fit.completes.accepts (each _ present)).mp (accepted _ kept rfl)
  · rintro accepted ⟨_, value⟩ present rfl
    rcases (mem_filled conform.distinct unique known).mp present with
      ⟨given, before, rfl⟩ | ⟨-, defaulted⟩
    · exact (fit.completes.accepts (each _ before)).mpr (accepted _ before rfl)
    · exact (fit.default value defaulted).2

/-- With the defaults, nothing is missing that is not required. -/
theorem present_iff (unique : (members.map (·.1)).Nodup) :
    (∀ field ∈ fields, ∃ member ∈ filled properties members, member.1 = .str field.1) ↔
      ∀ name ∈ required, ∃ member ∈ members, member.1 = .str name := by
  constructor
  · intro all name member
    obtain ⟨property, known, bare, rfl⟩ := conform.mem_required.mp member
    obtain ⟨field, listed, fit⟩ := conform.exists_field known
    obtain ⟨⟨_, value⟩, present, rfl⟩ := all field listed
    rw [← fit.named] at present
    rcases (mem_filled conform.distinct unique known).mp present with
      ⟨given, before, -⟩ | ⟨-, defaulted⟩
    · exact ⟨_, before, rfl⟩
    · rw [bare] at defaulted
      cases defaulted
  · intro all field listed
    obtain ⟨property, known, fit⟩ := conform.exists_property listed
    rw [← fit.named]
    have item := @mem_filled property _ _ conform.distinct unique known
    by_cases present : ∃ member ∈ members, member.1 = .str property.name
    · obtain ⟨⟨_, given⟩, before, rfl⟩ := present
      exact ⟨_, item.mpr (.inl ⟨given, before, rfl⟩), rfl⟩
    · cases defaulted : property.default with
      | none =>
          have needs := conform.mem_required.mpr ⟨property, known, defaulted, rfl⟩
          exact absurd (all _ needs) present
      | some value =>
          have absent : ∀ member ∈ members, member.1 ≠ .str property.name :=
            fun member listed named => present ⟨member, listed, named⟩
          exact ⟨_, item.mpr (.inr ⟨absent, defaulted⟩), rfl⟩

/-- The defaults add no unknown names. -/
theorem only_iff (unique : (members.map (·.1)).Nodup) :
    (∀ member ∈ filled properties members, ∃ field ∈ fields, member.1 = .str field.1) ↔
      ∀ member ∈ members, ∃ name ∈ fields.map (·.1), member.1 = .str name := by
  simp only [List.mem_map, exists_exists_and_eq_and]
  constructor
  all_goals
    rintro only ⟨key, value⟩ present
    rcases conform.fresh_or_field key with fresh | ⟨property, known, field, listed, fit, rfl⟩
  · exact only _ ((mem_filled_of_ne unique fresh).mpr present)
  · exact ⟨field, listed, congrArg Key.str fit.named⟩
  · exact only _ ((mem_filled_of_ne unique fresh).mp present)
  · exact ⟨field, listed, congrArg Key.str fit.named⟩

end Property.Conform

namespace Python.Schema

/-- A schema without closed objects has nothing to complete. -/
theorem completes_id {schema : Schema} (same : schema.complete = schema) : schema.Completes id where
  json := id
  accepts _ := by rw [same, id]

/-- The attributes of a model complete its schema. -/
theorem completes_closed {properties : List Property} {required : List Str}
    {fields : List (Str × Schema)} (fits : List.Forall₂ Property.Fits properties fields)
    (needed : required = properties.filterMap fun property =>
      if property.default.isNone then some property.name else none)
    (distinct : (properties.map (·.name)).Nodup) :
    (closed required fields).Completes (Value.fill properties) := by
  have conform : Property.Conform properties required fields := ⟨fits, needed, distinct⟩
  constructor
  · intro document json
    have plain := json
    cases json with
    | dict => exact conform.json_filled plain
    | _ => exact plain
  · intro document json
    cases json with
    | dict textual unique each =>
        rw [Value.fill, accepts_complete_closed conform.required_subset, accepts_closed,
          accepts_object, Assertion.holds_only, conform.values_iff unique each,
          conform.present_iff unique, conform.only_iff unique, and_assoc]
    | _ =>
        simp [Value.fill, closed, object, complete, completeEach, Assertion.holds, Kind.admits]

section

variable {name : String} {schema : Schema} {fill : Value → Value}

theorem fits_required (completes : schema.Completes fill) :
    Property.Fits { name := Str.ofString name, fill := fill } (Str.ofString name, schema) where
  named := rfl
  encodable := Str.encodable_ofString name
  completes := completes
  default := by rintro _ ⟨⟩

theorem fits_default {value : Value} (completes : schema.Completes fill) (json : value.Json)
    (accepted : schema.complete.accepts value) :
    Property.Fits { name := Str.ofString name, default := some value, fill := fill }
      (Str.ofString name, schema) where
  named := rfl
  encodable := Str.encodable_ofString name
  completes := completes
  default := by
    rintro _ ⟨⟩
    exact ⟨json, accepted⟩

theorem fits_optional (completes : (nullable schema).Completes fill) :
    Property.Fits { name := Str.ofString name, default := some .none, fill := fill }
      (Str.ofString name, nullable schema) := by
  refine fits_default completes .none ?_
  simp [nullable, complete, completeEach, Assertion.holds, Kind.admits]

end

end Python.Schema

/-! ### Models -/

theorem accepts_constant {text : Str} : (constant text).complete.accepts (.str text) := by
  simp [constant, complete, completeEach, Assertion.holds, Kind.admits]

theorem accepts_oneOf {texts : List Str} {text : Str} (known : text ∈ texts) :
    (oneOf texts).complete.accepts (.str text) := by
  simp [oneOf, complete, completeEach, Assertion.holds, Kind.admits, known]

theorem accepts_nil : (listOf text).complete.accepts (.list []) :=
  accepts_listOf_text.mpr ⟨[], rfl⟩

theorem Digest.completed : ImplementationSchema.digest.Completes (Value.fill properties) := by
  refine completes_closed ?_ rfl ?_
  · exact .cons (fits_default (completes_id rfl) Value.json_str (accepts_oneOf (by simp [hashAlgorithms]))) <|
      .cons (fits_required (completes_id rfl)) .nil
  · simp [properties, Str.ofString_inj]

theorem Initiator.completed : ImplementationSchema.initiator.Completes (Value.fill properties) := by
  refine completes_closed ?_ rfl ?_
  · exact .cons (fits_required (completes_id rfl)) <|
      .cons (fits_required (completes_id rfl)) <|
      .cons (fits_optional (completes_id rfl)) <|
      .cons (fits_optional (completes_id rfl)) <|
      .cons (fits_optional (completes_id rfl)) .nil
  · simp [properties, Str.ofString_inj]

theorem NetworkContext.completed :
    ImplementationSchema.networkContext.Completes (Value.fill properties) := by
  refine completes_closed ?_ rfl ?_
  · exact .cons (fits_optional (completes_id rfl)) <|
      .cons (fits_optional (completes_id rfl)) <|
      .cons (fits_optional (completes_id rfl)) <|
      .cons (fits_default (completes_id rfl) (.list (by simp)) accepts_nil) <|
      .cons (fits_optional (completes_id rfl)) <|
      .cons (fits_optional (completes_id rfl)) .nil
  · simp [properties, Str.ofString_inj]

theorem SubscriberScope.completed :
    ImplementationSchema.subscriberScope.Completes (Value.fill properties) := by
  refine completes_closed ?_ rfl ?_
  · exact .cons (fits_default (completes_id rfl) Value.json_str (accepts_oneOf (by simp [scopeTypes, ScopeType.value]))) <|
      .cons (fits_optional (completes_id rfl)) .nil
  · simp [properties, Str.ofString_inj]

/-- The scope made of defaults conforms. -/
theorem SubscriberScope.default_conforms : (Value.fill properties (.dict [])).Json ∧
    ImplementationSchema.subscriberScope.complete.accepts (Value.fill properties (.dict [])) := by
  have json : (Value.dict []).Json := .dict (by simp) (by simp) (by simp)
  refine ⟨completed.json json, (completed.accepts json).mpr ?_⟩
  simp [ImplementationSchema.subscriberScope, closed, object, Assertion.holds, Kind.admits]

theorem ResourceScope.completed :
    ImplementationSchema.resourceScope.Completes (Value.fill properties) := by
  refine completes_closed ?_ rfl ?_
  · exact .cons (fits_required (completes_id rfl)) <|
      .cons (fits_required (completes_id rfl)) <|
      .cons (fits_default SubscriberScope.completed SubscriberScope.default_conforms.1
        SubscriberScope.default_conforms.2) .nil
  · simp [properties, Str.ofString_inj]

theorem Purpose.completed : ImplementationSchema.purpose.Completes (Value.fill properties) := by
  refine completes_closed ?_ rfl ?_
  · exact .cons (fits_required (completes_id rfl)) <|
      .cons (fits_required (completes_id rfl)) <|
      .cons (fits_optional (completes_id rfl)) <|
      .cons (fits_optional (completes_id rfl)) .nil
  · simp [properties, Str.ofString_inj]

theorem RequestedEffect.completed :
    ImplementationSchema.requestedEffect.Completes (Value.fill properties) := by
  refine completes_closed ?_ rfl ?_
  · exact .cons (fits_required (completes_id rfl)) <|
      .cons (fits_required Digest.completed) <|
      .cons (fits_optional (completes_id rfl)) <|
      .cons (fits_optional (completes_id rfl)) .nil
  · simp [properties, Str.ofString_inj]

theorem PolicyState.completed :
    ImplementationSchema.policyState.Completes (Value.fill properties) := by
  refine completes_closed ?_ rfl ?_
  · exact .cons (fits_required (completes_id rfl)) <|
      .cons (fits_required (completes_id rfl)) <|
      .cons (fits_required (completes_id rfl)) <|
      .cons (fits_optional (completes_id rfl)) <|
      .cons (fits_optional (completes_id rfl)) .nil
  · simp [properties, Str.ofString_inj]

theorem Freshness.completed : ImplementationSchema.freshness.Completes (Value.fill properties) := by
  refine completes_closed ?_ rfl ?_
  · exact .cons (fits_required (completes_id rfl)) <|
      .cons (fits_optional (completes_id rfl)) <|
      .cons (fits_optional (completes_id rfl)) .nil
  · simp [properties, Str.ofString_inj]

theorem FinalitySinkDescriptor.completed :
    ImplementationSchema.finalitySinkDescriptor.Completes (Value.fill properties) := by
  refine completes_closed ?_ rfl ?_
  · exact .cons (fits_required (completes_id rfl)) <|
      .cons (fits_required (completes_id rfl)) .nil
  · simp [properties, Str.ofString_inj]

theorem NetworkCandidateAct.completed :
    ImplementationSchema.networkCandidateAct.Completes (Value.fill properties) := by
  refine completes_closed ?_ rfl ?_
  · exact .cons (fits_default (completes_id rfl) Value.json_str accepts_constant) <|
      .cons (fits_default (completes_id rfl) Value.json_str accepts_constant) <|
      .cons (fits_required (completes_id rfl)) <|
      .cons (fits_required (completes_id rfl)) <|
      .cons (fits_required (completes_id rfl)) <|
      .cons (fits_required (completes_id rfl)) <|
      .cons (fits_required Initiator.completed) <|
      .cons (fits_required NetworkContext.completed) <|
      .cons (fits_required ResourceScope.completed) <|
      .cons (fits_required Purpose.completed) <|
      .cons (fits_required RequestedEffect.completed) <|
      .cons (fits_required PolicyState.completed) <|
      .cons (fits_required Freshness.completed) <|
      .cons (fits_required FinalitySinkDescriptor.completed) .nil
  · simp [properties, Str.ofString_inj]

/-- The defaults are no timestamps. -/
theorem NetworkCandidateAct.timed_withDefaults {document : Value} (json : document.Json) :
    (withDefaults document).Timed ↔ document.Timed := by
  have names : (properties.map (·.name)).Nodup := by simp [properties, Str.ofString_inj]
  have kept (name : Str) (known : { name := name } ∈ properties) (value : Value) :
      (withDefaults document).Has name value ↔ document.Has name value := by
    rw [withDefaults, json.has_fill names known]
    simp
  have created := kept ("created_at" : Str) (by simp [properties])
  have expires := kept ("expires_at" : Str) (by simp [properties])
  simp only [Value.Timed, created, expires]

end NetworkFinality
