import NetworkFinality.Model.Authority
import NetworkFinality.Spec.CanonicalForm

/-!
# What canonical bytes bind

Each model dumps a dict with one item for each field, under fixed and distinct names.
So two dumps agree exactly when the models agree on every field, nested models
included, and the bytes of a dump say which model it is.
-/

namespace NetworkFinality

open Python

namespace Python.Value

/-! ### Fields -/

@[simp] theorem agree_str {left right : Str} : (str left).Agree (.str right) ↔ left = right := by
  simp [Agree, normalize, eq_comm]

@[simp] theorem agree_enum {left right : Str} : (enum left).Agree (.enum right) ↔ left = right := by
  simp [Agree, normalize, eq_comm]

@[simp] theorem agree_int {left right : Int} : (int left).Agree (.int right) ↔ left = right := by
  simp [Agree, normalize, eq_comm]

@[simp] theorem agree_bool {left right : Bool} : (bool left).Agree (.bool right) ↔ left = right := by
  simp [Agree, normalize, eq_comm]

/-- Datetimes agree when they are one instant. -/
theorem agree_datetime {left right : AwareDateTime} :
    (datetime left).Agree (.datetime right) ↔
      ∃ time, left.toUtc = .ok time ∧ right.toUtc = .ok time := by
  constructor
  · rintro ⟨normal, normalized, normalized'⟩
    simp only [normalize, bind_eq_ok, pure_eq_ok] at normalized normalized'
    obtain ⟨time, instant, rfl⟩ := normalized
    obtain ⟨time', instant', text⟩ := normalized'
    obtain rfl := DateTime.isoformatMicroseconds_injective (str.inj text)
    exact ⟨time', instant, instant'⟩
  · rintro ⟨time, instant, instant'⟩
    exact ⟨.str time.isoformatMicroseconds, by simp [normalize, instant], by
      simp [normalize, instant']⟩

@[simp] theorem agree_timestamp {left right : DateTime} :
    (timestamp left).Agree (timestamp right) ↔ left = right := by
  simp [timestamp, agree_datetime, eq_comm]

/-- Optional fields agree when both are absent, or both are present and agree. -/
theorem agree_optional {α : Type} {encode : α → Value} {left right : Option α}
    (inner : ∀ {x y}, (encode x).Agree (encode y) ↔ x = y)
    (present : ∀ x, normalize (encode x) ≠ .ok .none) :
    (optional encode left).Agree (optional encode right) ↔ left = right := by
  cases left with
  | none =>
      cases right with
      | none => exact iff_of_true ⟨.none, rfl, rfl⟩ rfl
      | some y =>
          refine iff_of_false ?_ (by simp)
          rintro ⟨normal, normalized, normalized'⟩
          obtain rfl := Except.ok.inj normalized
          exact present y normalized'
  | some x =>
      cases right with
      | none =>
          refine iff_of_false ?_ (by simp)
          rintro ⟨normal, normalized, normalized'⟩
          obtain rfl := Except.ok.inj normalized'
          exact present x normalized
      | some y => exact inner.trans (Option.some.injEq x y).symm.to_iff

@[simp] theorem agree_optional_str {left right : Option Str} :
    (optional str left).Agree (optional str right) ↔ left = right :=
  agree_optional agree_str (by simp [normalize])

@[simp] theorem agree_optional_nat {left right : Option Nat} :
    (optional (fun n => int n) (left.bind fun n => some (n : Int))).Agree
      (optional (fun n => int n) (right.bind fun n => some (n : Int))) ↔ left = right := by
  rw [agree_optional agree_int (by simp [normalize])]
  cases left <;> cases right <;> simp

/-- Lists of texts agree when they are the same list. -/
@[simp] theorem agree_texts {left right : List Str} :
    (list (left.map str)).Agree (.list (right.map str)) ↔ left = right := by
  rw [agree_list, List.forall₂_map_left_iff, List.forall₂_map_right_iff]
  simp only [agree_str, List.forall₂_eq_eq_eq]

/-- Fields that stand under one key stand at one place. -/
private theorem forall₂_of_keys {related : Value → Value → Prop} {items items' : List (Key × Value)}
    (same : items.map (·.1) = items'.map (·.1)) (distinct : (items.map (·.1)).Nodup) :
    (∀ key value value', (key, value) ∈ items → (key, value') ∈ items' → related value value') ↔
      List.Forall₂ (fun left right => related left.2 right.2) items items' := by
  induction items generalizing items' with
  | nil =>
      obtain rfl : items' = [] := List.map_eq_nil_iff.mp same.symm
      simp
  | cons item items inductionHypothesis =>
      cases items' with
      | nil => cases same
      | cons item' items' =>
          obtain ⟨key, value⟩ := item
          obtain ⟨key', value'⟩ := item'
          obtain ⟨rfl, tails⟩ : key = key' ∧ items.map (·.1) = items'.map (·.1) := by
            simpa using same
          obtain ⟨fresh, distinct⟩ : key ∉ items.map (·.1) ∧ (items.map (·.1)).Nodup := by
            simpa using distinct
          have fresh' : key ∉ items'.map (·.1) := tails ▸ fresh
          rw [List.forall₂_cons, ← inductionHypothesis tails distinct]
          constructor
          · intro each
            refine ⟨each key value value' (by simp) (by simp), ?_⟩
            intro key value value' member member'
            exact each key value value' (by simp [member]) (by simp [member'])
          · rintro ⟨first, each⟩ key' left right member member'
            rcases List.mem_cons.mp member with head | later
            · obtain ⟨rfl, rfl⟩ := Prod.mk.inj head
              rcases List.mem_cons.mp member' with head' | later'
              · rw [(Prod.mk.inj head').2]
                exact first
              · exact absurd (List.mem_map_of_mem later') fresh'
            · rcases List.mem_cons.mp member' with head' | later'
              · obtain ⟨rfl, rfl⟩ := Prod.mk.inj head'
                exact absurd (List.mem_map_of_mem later) fresh
              · exact each key' left right later later'

/-- Dicts with the same fields agree when the fields do. -/
theorem agree_record {items items' : List (Key × Value)} (same : items.map (·.1) = items'.map (·.1))
    (textual : ∀ item ∈ items, ∃ name, item.1 = .str name) (distinct : (items.map (·.1)).Nodup) :
    (dict items).Agree (.dict items') ↔
      List.Forall₂ (fun left right => left.2.Agree right.2) items items' := by
  have textual' : ∀ item ∈ items', ∃ name, item.1 = .str name := by
    intro item member
    have key : item.1 ∈ items.map (·.1) := same ▸ List.mem_map_of_mem member
    obtain ⟨original, present, equal⟩ := List.mem_map.mp key
    exact equal ▸ textual original present
  rw [agree_dict textual textual' distinct (same ▸ distinct), forall₂_of_keys same distinct]
  exact and_iff_right (same ▸ List.Perm.refl _)

end Python.Value

/-! ### Enumerations -/

theorem HashAlgorithm.value_inj {left right : HashAlgorithm} :
    left.value = right.value ↔ left = right := by
  cases left <;> cases right <;> decide

theorem ActType.value_inj {left right : ActType} : left.value = right.value ↔ left = right := by
  cases left <;> cases right <;> decide

theorem FunctionType.value_inj {left right : FunctionType} :
    left.value = right.value ↔ left = right := by
  cases left <;> cases right <;> decide

theorem ResourceType.value_inj {left right : ResourceType} :
    left.value = right.value ↔ left = right := by
  cases left <;> cases right <;> decide

theorem ScopeType.value_inj {left right : ScopeType} : left.value = right.value ↔ left = right := by
  cases left <;> cases right <;> decide

theorem SinkType.value_inj {left right : SinkType} : left.value = right.value ↔ left = right := by
  cases left <;> cases right <;> decide

theorem Reversibility.value_inj {left right : Reversibility} :
    left.value = right.value ↔ left = right := by
  cases left <;> cases right <;> decide

/-! ### Models -/

open Value

@[simp] theorem agree_optional_reversibility {left right : Option Reversibility} :
    (optional (fun kind => enum kind.value) left).Agree
      (optional (fun kind => enum kind.value) right) ↔ left = right :=
  agree_optional (agree_enum.trans Reversibility.value_inj) (by simp [normalize])

theorem Digest.agree {left right : Digest} :
    left.modelDump.Agree right.modelDump ↔ left = right := by
  simp only [Digest.modelDump]
  rw [agree_record]
  · cases left
    cases right
    simp [field, HashAlgorithm.value_inj, Subtype.ext_iff]
  · rfl
  · simp [field]
  · simp [field, Str.ofString_inj]

theorem Initiator.agree {left right : Initiator} :
    left.modelDump.Agree right.modelDump ↔ left = right := by
  simp only [Initiator.modelDump]
  rw [agree_record]
  · cases left
    cases right
    simp [field, FunctionType.value_inj, Subtype.ext_iff]
  · rfl
  · simp [field]
  · simp [field, Str.ofString_inj]

theorem NetworkContext.agree {left right : NetworkContext} :
    left.modelDump.Agree right.modelDump ↔ left = right := by
  simp only [NetworkContext.modelDump]
  rw [agree_record]
  · cases left
    cases right
    simp [field]
  · rfl
  · simp [field]
  · simp [field, Str.ofString_inj]

theorem SubscriberScope.agree {left right : SubscriberScope} :
    left.modelDump.Agree right.modelDump ↔ left = right := by
  simp only [SubscriberScope.modelDump]
  rw [agree_record]
  · cases left
    cases right
    simp [field, ScopeType.value_inj]
  · rfl
  · simp [field]
  · simp [field, Str.ofString_inj]

theorem ResourceScope.agree {left right : ResourceScope} :
    left.modelDump.Agree right.modelDump ↔ left = right := by
  simp only [ResourceScope.modelDump]
  rw [agree_record]
  · cases left
    cases right
    simp [field, ResourceType.value_inj, SubscriberScope.agree, Subtype.ext_iff]
  · rfl
  · simp [field]
  · simp [field, Str.ofString_inj]

theorem Purpose.agree {left right : Purpose} :
    left.modelDump.Agree right.modelDump ↔ left = right := by
  simp only [Purpose.modelDump]
  rw [agree_record]
  · cases left
    cases right
    simp [field, Subtype.ext_iff]
  · rfl
  · simp [field]
  · simp [field, Str.ofString_inj]

theorem RequestedEffect.agree {left right : RequestedEffect} :
    left.modelDump.Agree right.modelDump ↔ left = right := by
  simp only [RequestedEffect.modelDump]
  rw [agree_record]
  · cases left
    cases right
    simp [field, Digest.agree, Subtype.ext_iff]
  · rfl
  · simp [field]
  · simp [field, Str.ofString_inj]

theorem PolicyState.agree {left right : PolicyState} :
    left.modelDump.Agree right.modelDump ↔ left = right := by
  simp only [PolicyState.modelDump]
  rw [agree_record]
  · cases left
    cases right
    simp [field]
  · rfl
  · simp [field]
  · simp [field, Str.ofString_inj]

theorem Freshness.agree {left right : Freshness} :
    left.modelDump.Agree right.modelDump ↔ left = right := by
  simp only [Freshness.modelDump]
  rw [agree_record]
  · cases left
    cases right
    simp [field, Subtype.ext_iff]
  · rfl
  · simp [field]
  · simp [field, Str.ofString_inj]

theorem FinalitySinkDescriptor.agree {left right : FinalitySinkDescriptor} :
    left.modelDump.Agree right.modelDump ↔ left = right := by
  simp only [FinalitySinkDescriptor.modelDump]
  rw [agree_record]
  · cases left
    cases right
    simp [field, SinkType.value_inj, Subtype.ext_iff]
  · rfl
  · simp [field]
  · simp [field, Str.ofString_inj]

theorem NetworkCandidateAct.agree {left right : NetworkCandidateAct} :
    left.modelDump.Agree right.modelDump ↔ left = right := by
  simp only [NetworkCandidateAct.modelDump]
  rw [agree_record]
  · cases left
    cases right
    simp [field, ActType.value_inj, Initiator.agree, NetworkContext.agree, ResourceScope.agree,
      Purpose.agree, RequestedEffect.agree, PolicyState.agree, Freshness.agree,
      FinalitySinkDescriptor.agree, Subtype.ext_iff]
  · rfl
  · simp [field]
  · simp [field, Str.ofString_inj]

theorem AuthorityScope.agree {left right : AuthorityScope} :
    left.modelDump.Agree right.modelDump ↔ left = right := by
  simp only [AuthorityScope.modelDump]
  rw [agree_record]
  · cases left
    cases right
    simp [field, ActType.value_inj, ResourceType.value_inj, SubscriberScope.agree,
      Subtype.ext_iff]
  · rfl
  · simp [field]
  · simp [field, Str.ofString_inj]

theorem AuthorityBinding.agree {left right : AuthorityBinding} :
    left.modelDump.Agree right.modelDump ↔ left = right := by
  simp only [AuthorityBinding.modelDump]
  rw [agree_record]
  · cases left
    cases right
    simp [field, Digest.agree, Subtype.ext_iff]
  · rfl
  · simp [field]
  · simp [field, Str.ofString_inj]

theorem AuthorityLifetime.agree {left right : AuthorityLifetime} :
    left.modelDump.Agree right.modelDump ↔ left = right := by
  simp only [AuthorityLifetime.modelDump]
  rw [agree_record]
  · cases left
    cases right
    simp [field]
  · rfl
  · simp [field]
  · simp [field, Str.ofString_inj]

theorem AuthorityIssuer.agree {left right : AuthorityIssuer} :
    left.modelDump.Agree right.modelDump ↔ left = right := by
  simp only [AuthorityIssuer.modelDump]
  rw [agree_record]
  · cases left
    cases right
    simp [field]
  · rfl
  · simp [field]
  · simp [field, Str.ofString_inj]

theorem NetworkFinalityAuthority.agree {left right : NetworkFinalityAuthority} :
    left.modelDump.Agree right.modelDump ↔ left = right := by
  simp only [NetworkFinalityAuthority.modelDump]
  rw [agree_record]
  · cases left
    cases right
    simp [field, AuthorityScope.agree, AuthorityBinding.agree, AuthorityLifetime.agree,
      AuthorityIssuer.agree]
  · rfl
  · simp [field]
  · simp [field, Str.ofString_inj]

/-! ### Dumps are plain data -/

@[simp] theorem plain_str {text : Str} : (str text).Plain := .str text

@[simp] theorem plain_enum {text : Str} : (enum text).Plain := .enum text

@[simp] theorem plain_int {value : Int} : (int value).Plain := .int value

@[simp] theorem plain_bool {value : Bool} : (bool value).Plain := .bool value

@[simp] theorem plain_timestamp {time : DateTime} : (timestamp time).Plain := .datetime _

@[simp] theorem plain_optional {α : Type} {encode : α → Value} {value : Option α}
    (inner : ∀ x, (encode x).Plain) : (optional encode value).Plain := by
  cases value with
  | none => exact .none
  | some x => exact inner x

@[simp] theorem plain_texts {texts : List Str} : (list (texts.map str)).Plain := by
  refine .list fun item member => ?_
  obtain ⟨text, -, rfl⟩ := List.mem_map.mp member
  exact .str text

theorem Digest.plain (model : Digest) : model.modelDump.Plain := by
  refine .dict ?_ ?_ ?_
  · simp [field]
  · simp [field, Str.ofString_inj]
  · simp [field]

theorem Initiator.plain (model : Initiator) : model.modelDump.Plain := by
  refine .dict ?_ ?_ ?_
  · simp [field]
  · simp [field, Str.ofString_inj]
  · simp [field]

theorem NetworkContext.plain (model : NetworkContext) : model.modelDump.Plain := by
  refine .dict ?_ ?_ ?_
  · simp [field]
  · simp [field, Str.ofString_inj]
  · simp [field]

theorem SubscriberScope.plain (model : SubscriberScope) : model.modelDump.Plain := by
  refine .dict ?_ ?_ ?_
  · simp [field]
  · simp [field, Str.ofString_inj]
  · simp [field]

theorem ResourceScope.plain (model : ResourceScope) : model.modelDump.Plain := by
  refine .dict ?_ ?_ ?_
  · simp [field]
  · simp [field, Str.ofString_inj]
  · simp [field, SubscriberScope.plain]

theorem Purpose.plain (model : Purpose) : model.modelDump.Plain := by
  refine .dict ?_ ?_ ?_
  · simp [field]
  · simp [field, Str.ofString_inj]
  · simp [field]

theorem RequestedEffect.plain (model : RequestedEffect) : model.modelDump.Plain := by
  refine .dict ?_ ?_ ?_
  · simp [field]
  · simp [field, Str.ofString_inj]
  · simp [field, Digest.plain]

theorem PolicyState.plain (model : PolicyState) : model.modelDump.Plain := by
  refine .dict ?_ ?_ ?_
  · simp [field]
  · simp [field, Str.ofString_inj]
  · simp [field]

theorem Freshness.plain (model : Freshness) : model.modelDump.Plain := by
  refine .dict ?_ ?_ ?_
  · simp [field]
  · simp [field, Str.ofString_inj]
  · simp [field]

theorem FinalitySinkDescriptor.plain (model : FinalitySinkDescriptor) : model.modelDump.Plain := by
  refine .dict ?_ ?_ ?_
  · simp [field]
  · simp [field, Str.ofString_inj]
  · simp [field]

theorem NetworkCandidateAct.plain (model : NetworkCandidateAct) : model.modelDump.Plain := by
  refine .dict ?_ ?_ ?_
  · simp [field]
  · simp [field, Str.ofString_inj]
  · simp [field, Initiator.plain, NetworkContext.plain, ResourceScope.plain, Purpose.plain,
      RequestedEffect.plain, PolicyState.plain, Freshness.plain, FinalitySinkDescriptor.plain]

theorem AuthorityScope.plain (model : AuthorityScope) : model.modelDump.Plain := by
  refine .dict ?_ ?_ ?_
  · simp [field]
  · simp [field, Str.ofString_inj]
  · simp [field, SubscriberScope.plain]

theorem AuthorityBinding.plain (model : AuthorityBinding) : model.modelDump.Plain := by
  refine .dict ?_ ?_ ?_
  · simp [field]
  · simp [field, Str.ofString_inj]
  · simp [field, Digest.plain]

theorem AuthorityLifetime.plain (model : AuthorityLifetime) : model.modelDump.Plain := by
  refine .dict ?_ ?_ ?_
  · simp [field]
  · simp [field, Str.ofString_inj]
  · simp [field]

theorem AuthorityIssuer.plain (model : AuthorityIssuer) : model.modelDump.Plain := by
  refine .dict ?_ ?_ ?_
  · simp [field]
  · simp [field, Str.ofString_inj]
  · simp [field]

theorem NetworkFinalityAuthority.plain (model : NetworkFinalityAuthority) : model.modelDump.Plain := by
  refine .dict ?_ ?_ ?_
  · simp [field]
  · simp [field, Str.ofString_inj]
  · simp [field, AuthorityScope.plain, AuthorityBinding.plain, AuthorityLifetime.plain,
      AuthorityIssuer.plain]

end NetworkFinality
