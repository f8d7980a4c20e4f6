import NetworkFinality.Model.Canonical
import NetworkFinality.Python.JsonText

/-!
# Canonical forms

`canonicalJsonBytes` fails or identifies its value: two values of plain data have one
byte string exactly when they agree, that is, when they normalize to one arranged
value. Among JSON values that is sameness up to the order of dict items, at every
depth.
-/

namespace NetworkFinality

open Python

namespace Python.Value

/-- Plain data: what the models dump, and what JSON can express. -/
inductive Plain : Value → Prop where
  | none : Plain .none
  | bool (value : Bool) : Plain (.bool value)
  | int (value : Int) : Plain (.int value)
  | str (text : Str) : Plain (.str text)
  | enum (text : Str) : Plain (.enum text)
  | datetime (time : AwareDateTime) : Plain (.datetime time)
  | list {items : List Value} (each : ∀ item ∈ items, Plain item) : Plain (.list items)
  | dict {items : List (Key × Value)} (textual : ∀ item ∈ items, ∃ name, item.1 = .str name)
      (distinct : (items.map (·.1)).Nodup) (each : ∀ item ∈ items, Plain item.2) :
      Plain (.dict items)

/-- The values of JSON, with strings that have a UTF-8 form. -/
inductive Json : Value → Prop where
  | none : Json .none
  | bool (value : Bool) : Json (.bool value)
  | int (value : Int) : Json (.int value)
  | str {text : Str} (encodable : text.Encodable) : Json (.str text)
  | list {items : List Value} (each : ∀ item ∈ items, Json item) : Json (.list items)
  | dict {items : List (Key × Value)}
      (textual : ∀ item ∈ items, ∃ name, item.1 = .str name ∧ name.Encodable)
      (distinct : (items.map (·.1)).Nodup) (each : ∀ item ∈ items, Json item.2) :
      Json (.dict items)

theorem Json.plain {value : Value} (json : value.Json) : value.Plain := by
  induction json with
  | none => exact .none
  | bool value => exact .bool value
  | int value => exact .int value
  | str encodable => exact .str _
  | list _ inductionHypothesis => exact .list inductionHypothesis
  | dict textual distinct _ inductionHypothesis =>
      refine .dict (fun item member => ?_) distinct inductionHypothesis
      obtain ⟨name, named, -⟩ := textual item member
      exact ⟨name, named⟩

/-- The values are the same, except that dicts may list their items in another order. -/
inductive Same : Value → Value → Prop where
  | none : Same .none .none
  | bool (value : Bool) : Same (.bool value) (.bool value)
  | int (value : Int) : Same (.int value) (.int value)
  | str (text : Str) : Same (.str text) (.str text)
  | list {items items' : List Value} (length : items.length = items'.length)
      (each : ∀ pair ∈ items.zip items', Same pair.1 pair.2) : Same (.list items) (.list items')
  | dict {items items' : List (Key × Value)} (keys : (items.map (·.1)).Perm (items'.map (·.1)))
      (each : ∀ key value value', (key, value) ∈ items → (key, value') ∈ items' →
        Same value value') : Same (.dict items) (.dict items')

/-- The values have one normal form. -/
def Agree (value value' : Value) : Prop :=
  ∃ normal, normalize value = .ok normal ∧ normalize value' = .ok normal

end Python.Value

/-! ### Sorted items -/

/-- An item under a text key. -/
private def named {α : Type} (item : Str × α) : Key × α := (.str item.1, item.2)

private theorem exists_named {α : Type} {items : List (Key × α)}
    (textual : ∀ item ∈ items, ∃ name, item.1 = .str name) :
    ∃ texts : List (Str × α), items = texts.map named := by
  induction items with
  | nil => exact ⟨[], rfl⟩
  | cons item items inductionHypothesis =>
      obtain ⟨name, key⟩ := textual item (by simp)
      obtain ⟨texts, rfl⟩ := inductionHypothesis fun item member => textual item (by simp [member])
      refine ⟨(name, item.2) :: texts, ?_⟩
      rw [List.map_cons, named, ← key]

private def beforeEq {α : Type} (left right : Str × α) : Prop := Str.le left.1 right.1 = true

private instance {α : Type} : DecidableRel (beforeEq (α := α)) := fun left right =>
  inferInstanceAs (Decidable (Str.le left.1 right.1 = true))

private instance {α : Type} : Std.Total (beforeEq (α := α)) :=
  ⟨fun left right => Str.le_total left.1 right.1⟩

private instance {α : Type} : IsTrans (Str × α) beforeEq :=
  ⟨fun _ _ _ => Str.le_trans⟩

/-- Items with distinct text keys are sorted in one way. -/
theorem sortItems_text {α : Type} {items : List (Key × α)}
    (textual : ∀ item ∈ items, ∃ name, item.1 = .str name) :
    ∃ sorted, sortItems items = .ok sorted ∧ sorted.Perm items ∧
      sorted.Pairwise fun left right => left.1.le right.1 = true := by
  obtain ⟨texts, rfl⟩ := exists_named textual
  have all : (texts.map named).all (·.1.isText) = true := by
    simp [named, Key.isText]
  have sorting : (texts.map named).insertionSort (fun left right => left.1.le right.1 = true) =
      (texts.insertionSort beforeEq).map named := by
    symm
    apply List.map_insertionSort
    intro left _ right _
    exact Iff.rfl
  refine ⟨(texts.insertionSort beforeEq).map named, ?_, ?_, ?_⟩
  · rw [sortItems, if_pos (.inr (.inl all)), sorting]
  · exact (List.perm_insertionSort _ _).map _
  · rw [List.pairwise_map]
    exact (List.pairwise_insertionSort beforeEq texts).imp id

/-- Sorting forgets the order of items with distinct keys. -/
theorem sorted_unique {α : Type} {items items' : List (Key × α)}
    (textual : ∀ item ∈ items, ∃ name, item.1 = .str name) (distinct : (items.map (·.1)).Nodup)
    (perm : items.Perm items')
    (sorted : items.Pairwise fun left right => left.1.le right.1 = true)
    (sorted' : items'.Pairwise fun left right => left.1.le right.1 = true) : items = items' := by
  refine perm.eq_of_pairwise ?_ sorted sorted'
  intro left right member member' before after
  have member' := perm.mem_iff.mpr member'
  apply List.inj_on_of_nodup_map distinct member member'
  obtain ⟨name, key⟩ := textual left member
  obtain ⟨name', key'⟩ := textual right member'
  rw [key, key'] at before after ⊢
  rw [Str.le_antisymm before after]

/-! ### Related lists -/

theorem forall₂_mem {α β : Type} {related : α → β → Prop} {items : List α}
    {results : List β} (all : List.Forall₂ related items results) {result : β}
    (member : result ∈ results) : ∃ item ∈ items, related item result := by
  induction all with
  | nil => cases member
  | cons first _ inductionHypothesis =>
      rcases List.mem_cons.mp member with rfl | later
      · exact ⟨_, List.mem_cons_self, first⟩
      · obtain ⟨item, present, relates⟩ := inductionHypothesis later
        exact ⟨item, List.mem_cons_of_mem _ present, relates⟩

theorem forall₂_of_forall {α β : Type} {related : α → β → Prop} {items : List α}
    (each : ∀ item ∈ items, ∃ result, related item result) :
    ∃ results, List.Forall₂ related items results := by
  induction items with
  | nil => exact ⟨[], .nil⟩
  | cons item items inductionHypothesis =>
      obtain ⟨result, first⟩ := each item (by simp)
      obtain ⟨results, further⟩ := inductionHypothesis fun item member => each item (by simp [member])
      exact ⟨result :: results, .cons first further⟩

theorem forall₂_keys {α β : Type} {related : Key × α → Key × β → Prop}
    (keeps : ∀ item result, related item result → item.1 = result.1) {items : List (Key × α)}
    {results : List (Key × β)} (all : List.Forall₂ related items results) :
    results.map (·.1) = items.map (·.1) := by
  induction all with
  | nil => rfl
  | cons first _ inductionHypothesis =>
      rw [List.map_cons, List.map_cons, inductionHypothesis, keeps _ _ first]

/-! ### Normal forms -/

theorem normalizeList_ok {items normals : List Value} :
    normalizeList items = .ok normals ↔
      List.Forall₂ (fun item normal => normalize item = .ok normal) items normals := by
  induction items generalizing normals with
  | nil =>
      constructor
      · intro done
        obtain rfl := Except.ok.inj done
        exact .nil
      · rintro ⟨⟩
        rfl
  | cons item items inductionHypothesis =>
      simp only [normalizeList, bind_eq_ok, pure_eq_ok, inductionHypothesis]
      constructor
      · rintro ⟨normal, first, rest, further, rfl⟩
        exact .cons first further
      · rintro (_ | ⟨first, further⟩)
        exact ⟨_, first, _, further, rfl⟩

/-- An item with the normal form of its value. -/
def NormalItem (item normal : Key × Value) : Prop :=
  item.1 = normal.1 ∧ normalize item.2 = .ok normal.2

theorem NormalItem.keys {items normals : List (Key × Value)}
    (related : List.Forall₂ NormalItem items normals) : normals.map (·.1) = items.map (·.1) :=
  forall₂_keys (fun _ _ normal => normal.1) related

theorem normalizeItems_ok {items normals : List (Key × Value)} :
    normalizeItems items = .ok normals ↔
      List.Forall₂ NormalItem items normals := by
  induction items generalizing normals with
  | nil =>
      constructor
      · intro done
        obtain rfl := Except.ok.inj done
        exact .nil
      · rintro ⟨⟩
        rfl
  | cons item items inductionHypothesis =>
      simp only [normalizeItems, bind_eq_ok, pure_eq_ok, inductionHypothesis]
      constructor
      · rintro ⟨normal, first, rest, further, rfl⟩
        exact .cons ⟨rfl, first⟩ further
      · rintro (_ | @⟨_, ⟨key, normal⟩, _, rest, ⟨rfl, first⟩, further⟩)
        exact ⟨normal, first, rest, further, rfl⟩

/-- A normal form is arranged. -/
theorem arranged_of_normalize {value normal : Value} (plain : value.Plain)
    (normalized : normalize value = .ok normal) : normal.Arranged := by
  induction plain generalizing normal with
  | none =>
      obtain rfl := Except.ok.inj normalized
      exact .none
  | bool value =>
      obtain rfl := Except.ok.inj normalized
      exact .bool value
  | int value =>
      obtain rfl := Except.ok.inj normalized
      exact .int value
  | str text =>
      obtain rfl := Except.ok.inj normalized
      exact .str text
  | enum text =>
      obtain rfl := Except.ok.inj normalized
      exact .str text
  | datetime time =>
      simp only [normalize, bind_eq_ok, pure_eq_ok] at normalized
      obtain ⟨instant, -, rfl⟩ := normalized
      exact .str _
  | list each inductionHypothesis =>
      simp only [normalize, bind_eq_ok, pure_eq_ok] at normalized
      obtain ⟨normals, normalized, rfl⟩ := normalized
      refine .list fun normal member => ?_
      obtain ⟨item, present, normalized⟩ := forall₂_mem (normalizeList_ok.mp normalized) member
      exact inductionHypothesis item present normalized
  | dict textual distinct each inductionHypothesis =>
      simp only [normalize, bind_eq_ok, pure_eq_ok] at normalized
      obtain ⟨_, -, normals, normalized, sorted, sorting, rfl⟩ := normalized
      have related := normalizeItems_ok.mp normalized
      have textual' : ∀ item ∈ normals, ∃ name, item.1 = .str name := by
        intro normal member
        obtain ⟨item, present, same, -⟩ := forall₂_mem related member
        rw [← same]
        exact textual item present
      obtain ⟨sorted', sorting', perm, ordered⟩ := sortItems_text textual'
      obtain rfl := Except.ok.inj (sorting.symm.trans sorting')
      refine .dict (fun normal member => textual' normal (perm.mem_iff.mp member)) ordered ?_
      intro normal member
      obtain ⟨item, present, -, normalized⟩ := forall₂_mem related (perm.mem_iff.mp member)
      exact inductionHypothesis item present normalized

/-- One byte string belongs to one normal form. -/
theorem agree_of_canonicalJsonBytes {value value' : Value} {bytes : Bytes} (plain : value.Plain)
    (plain' : value'.Plain) (encoded : canonicalJsonBytes value = .ok bytes)
    (encoded' : canonicalJsonBytes value' = .ok bytes) : value.Agree value' := by
  simp only [canonicalJsonBytes, bind_eq_ok] at encoded encoded'
  obtain ⟨normal, normalized, text, written, encoded⟩ := encoded
  obtain ⟨normal', normalized', text', written', encoded'⟩ := encoded'
  obtain rfl := Str.encode_injective encoded encoded'
  have same := dumps_injective (arranged_of_normalize plain normalized)
    (arranged_of_normalize plain' normalized') written written'
  exact ⟨normal, normalized, same ▸ normalized'⟩

/-- Values that agree have one byte string, or fail alike. -/
theorem canonicalJsonBytes_of_agree {value value' : Value} (agree : value.Agree value') :
    canonicalJsonBytes value = canonicalJsonBytes value' := by
  obtain ⟨normal, normalized, normalized'⟩ := agree
  rw [canonicalJsonBytes, canonicalJsonBytes, normalized, normalized']

/-! ### Agreement -/

/-- Lists agree when they agree item by item. -/
theorem agree_list {items items' : List Value} :
    (Value.list items).Agree (.list items') ↔ List.Forall₂ Value.Agree items items' := by
  constructor
  · rintro ⟨normal, normalized, normalized'⟩
    simp only [normalize, bind_eq_ok, pure_eq_ok] at normalized normalized'
    obtain ⟨normals, listed, rfl⟩ := normalized
    obtain ⟨normals', listed', same⟩ := normalized'
    obtain rfl := Value.list.inj same
    have related := normalizeList_ok.mp listed
    have related' := normalizeList_ok.mp listed'
    clear listed listed' same
    induction related generalizing items' with
    | nil =>
        cases related'
        exact .nil
    | cons first _ inductionHypothesis =>
        cases related' with
        | cons first' further' => exact .cons ⟨_, first, first'⟩ (inductionHypothesis further')
  · intro agree
    have both : ∃ normals, normalizeList items = .ok normals ∧ normalizeList items' = .ok normals := by
      induction agree with
      | nil => exact ⟨[], rfl, rfl⟩
      | cons first _ inductionHypothesis =>
          obtain ⟨normal, normalized, normalized'⟩ := first
          obtain ⟨normals, listed, listed'⟩ := inductionHypothesis
          refine ⟨normal :: normals, ?_, ?_⟩
          · simp [normalizeList, normalized, listed]
          · simp [normalizeList, normalized', listed']
    obtain ⟨normals, listed, listed'⟩ := both
    exact ⟨.list normals, by simp [normalize, listed], by simp [normalize, listed']⟩

/-- The normal form of a dict holds the normal forms of its items. -/
private theorem normalize_dict {items : List (Key × Value)} {normal : Value}
    (textual : ∀ item ∈ items, ∃ name, item.1 = .str name) :
    normalize (.dict items) = .ok normal ↔ ∃ normals sorted,
      List.Forall₂ NormalItem items normals ∧ sortItems normals = .ok sorted ∧ normal = .dict sorted := by
  obtain ⟨_, early, -⟩ := sortItems_text textual
  simp only [normalize, early, bind_eq_ok, pure_eq_ok, normalizeItems_ok, Except.ok.injEq,
    exists_eq_left']
  simp only [eq_comm]
  tauto

private theorem textual_normals {items normals : List (Key × Value)}
    (textual : ∀ item ∈ items, ∃ name, item.1 = .str name)
    (related : List.Forall₂ NormalItem items normals) : ∀ item ∈ normals, ∃ name, item.1 = .str name := by
  intro normal member
  obtain ⟨item, present, same, -⟩ := forall₂_mem related member
  rw [← same]
  exact textual item present

/-- The normal forms of the items, found under their keys. -/
private theorem mem_normals {items normals : List (Key × Value)}
    (distinct : (items.map (·.1)).Nodup)
    (related : List.Forall₂ NormalItem items normals) {key : Key} {value : Value} (member : (key, value) ∈ items) {normal : Value} :
    (key, normal) ∈ normals ↔ normalize value = .ok normal := by
  constructor
  · intro present
    obtain ⟨item, member', same, normalized⟩ := forall₂_mem related present
    obtain rfl := List.inj_on_of_nodup_map distinct member member' same.symm
    exact normalized
  · intro normalized
    obtain ⟨⟨key', normal'⟩, present, rfl, normalized'⟩ := forall₂_mem related.flip member
    obtain rfl := Except.ok.inj (normalized.symm.trans normalized')
    exact present

/-- Dicts agree when they have the same keys, and agree under each. -/
theorem agree_dict {items items' : List (Key × Value)}
    (textual : ∀ item ∈ items, ∃ name, item.1 = .str name)
    (textual' : ∀ item ∈ items', ∃ name, item.1 = .str name)
    (distinct : (items.map (·.1)).Nodup) (distinct' : (items'.map (·.1)).Nodup) :
    (Value.dict items).Agree (.dict items') ↔ (items.map (·.1)).Perm (items'.map (·.1)) ∧
      ∀ key value value', (key, value) ∈ items → (key, value') ∈ items' → value.Agree value' := by
  constructor
  · rintro ⟨normal, normalized, normalized'⟩
    obtain ⟨normals, sorted, related, sorting, rfl⟩ := (normalize_dict textual).mp normalized
    obtain ⟨normals', sorted', related', sorting', same⟩ :=
      (normalize_dict textual').mp normalized'
    obtain rfl := Value.dict.inj same
    obtain ⟨_, again, perm, -⟩ := sortItems_text (textual_normals textual related)
    obtain rfl := Except.ok.inj (sorting.symm.trans again)
    obtain ⟨_, again', perm', -⟩ := sortItems_text (textual_normals textual' related')
    obtain rfl := Except.ok.inj (sorting'.symm.trans again')
    have permuted := perm.symm.trans perm'
    refine ⟨?_, fun key value value' member member' => ?_⟩
    · rw [← NormalItem.keys related, ← NormalItem.keys related']
      exact permuted.map _
    · obtain ⟨⟨key', normal⟩, present, rfl, normalized⟩ := forall₂_mem related.flip member
      refine ⟨normal, normalized, ?_⟩
      exact (mem_normals distinct' related' member').mp (permuted.mem_iff.mp present)
  · rintro ⟨keys, each⟩
    have partner : ∀ item ∈ items, ∃ value', (item.1, value') ∈ items' := by
      intro item member
      obtain ⟨⟨key, value'⟩, present, same⟩ :=
        List.mem_map.mp (keys.mem_iff.mp (List.mem_map_of_mem member))
      exact ⟨value', same ▸ present⟩
    have partner' : ∀ item ∈ items', ∃ value, (item.1, value) ∈ items := by
      intro item member
      obtain ⟨⟨key, value⟩, present, same⟩ :=
        List.mem_map.mp (keys.mem_iff.mpr (List.mem_map_of_mem member))
      exact ⟨value, same ▸ present⟩
    obtain ⟨normals, related⟩ := @forall₂_of_forall _ _ NormalItem items fun item member => by
      obtain ⟨value', present⟩ := partner item member
      obtain ⟨normal, normalized, -⟩ := each item.1 item.2 value' member present
      exact ⟨(item.1, normal), rfl, normalized⟩
    obtain ⟨normals', related'⟩ := @forall₂_of_forall _ _ NormalItem items' fun item member => by
      obtain ⟨value, present⟩ := partner' item member
      obtain ⟨normal, -, normalized⟩ := each item.1 value item.2 present member
      exact ⟨(item.1, normal), rfl, normalized⟩
    have nodup : (normals.map (·.1)).Nodup := NormalItem.keys related ▸ distinct
    have nodup' : (normals'.map (·.1)).Nodup := NormalItem.keys related' ▸ distinct'
    have permuted : normals.Perm normals' := by
      rw [List.perm_ext_iff_of_nodup nodup.of_map nodup'.of_map]
      rintro ⟨key, normal⟩
      constructor
      · intro present
        obtain ⟨⟨_, value⟩, member, rfl, normalized⟩ := forall₂_mem related present
        obtain ⟨value', member'⟩ := partner _ member
        obtain ⟨normal', normalized', agreed⟩ := each _ value value' member member'
        obtain rfl := Except.ok.inj (normalized.symm.trans normalized')
        exact (mem_normals distinct' related' member').mpr agreed
      · intro present
        obtain ⟨⟨_, value'⟩, member', rfl, normalized'⟩ := forall₂_mem related' present
        obtain ⟨value, member⟩ := partner' _ member'
        obtain ⟨normal', agreed, normalized⟩ := each _ value value' member member'
        obtain rfl := Except.ok.inj (normalized'.symm.trans normalized)
        exact (mem_normals distinct related member).mpr agreed
    obtain ⟨sorted, sorting, perm, ordered⟩ := sortItems_text (textual_normals textual related)
    obtain ⟨sorted', sorting', perm', ordered'⟩ :=
      sortItems_text (textual_normals textual' related')
    have unique : sorted = sorted' := by
      refine sorted_unique (fun item member => ?_) ?_ (perm.trans (permuted.trans perm'.symm))
        ordered ordered'
      · exact textual_normals textual related item (perm.mem_iff.mp member)
      · exact (perm.map (·.1)).nodup_iff.mpr nodup
    subst unique
    exact ⟨.dict sorted, (normalize_dict textual).mpr ⟨normals, sorted, related, sorting, rfl⟩,
      (normalize_dict textual').mpr ⟨normals', sorted, related', sorting', rfl⟩⟩

/-! ### JSON values -/

/-- A normal form is of the kind of its value. -/
private theorem normalize_lead {value normal : Value} (json : value.Json)
    (normalized : normalize value = .ok normal) : normal.lead = value.lead := by
  cases json with
  | list each =>
      simp only [normalize, bind_eq_ok, pure_eq_ok] at normalized
      obtain ⟨normals, -, rfl⟩ := normalized
      rfl
  | dict textual distinct each =>
      simp only [normalize, bind_eq_ok, pure_eq_ok] at normalized
      obtain ⟨_, -, normals, -, sorted, -, rfl⟩ := normalized
      rfl
  | _ =>
      obtain rfl := Except.ok.inj normalized
      rfl

/-- JSON values agree exactly when they are the same up to the order of dict items. -/
theorem agree_iff_same {value value' : Value} (json : value.Json) (json' : value'.Json) :
    value.Agree value' ↔ value.Same value' := by
  constructor
  · intro agree
    induction json generalizing value' with
    | @list items each inductionHypothesis =>
        obtain ⟨normal, normalized, normalized'⟩ := id agree
        have leads := (normalize_lead (.list each) normalized).symm.trans
          (normalize_lead json' normalized')
        cases json' with
        | list each' =>
            obtain ⟨length, pairs⟩ := List.forall₂_iff_zip.mp (agree_list.mp agree)
            refine .list length fun pair member => ?_
            obtain ⟨left, right⟩ := List.of_mem_zip member
            exact inductionHypothesis pair.1 left (each' pair.2 right) (pairs member)
        | _ => cases leads
    | @dict items textual distinct each inductionHypothesis =>
        obtain ⟨normal, normalized, normalized'⟩ := id agree
        have leads := (normalize_lead (.dict textual distinct each) normalized).symm.trans
          (normalize_lead json' normalized')
        cases json' with
        | dict textual' distinct' each' =>
            have names := fun item member => (textual item member).imp fun _ => And.left
            have names' := fun item member => (textual' item member).imp fun _ => And.left
            obtain ⟨keys, pairs⟩ := (agree_dict names names' distinct distinct').mp agree
            refine .dict keys fun key left right member member' => ?_
            exact inductionHypothesis (key, left) member (each' (key, right) member')
              (pairs key left right member member')
        | _ => cases leads
    | _ =>
        obtain ⟨normal, normalized, normalized'⟩ := agree
        obtain rfl := Except.ok.inj normalized
        cases json' with
        | list each' =>
            simp only [normalize, bind_eq_ok, pure_eq_ok] at normalized'
            obtain ⟨normals, -, same⟩ := normalized'
            cases same
        | dict textual' distinct' each' =>
            simp only [normalize, bind_eq_ok, pure_eq_ok] at normalized'
            obtain ⟨_, -, normals, -, sorted, -, same⟩ := normalized'
            cases same
        | _ =>
            cases normalized'
            try constructor
  · intro same
    induction same with
    | none => exact ⟨_, rfl, rfl⟩
    | bool value => exact ⟨_, rfl, rfl⟩
    | int value => exact ⟨_, rfl, rfl⟩
    | str text => exact ⟨_, rfl, rfl⟩
    | list length each inductionHypothesis =>
        cases json with
        | list left =>
            cases json' with
            | list right =>
                refine agree_list.mpr (List.forall₂_iff_zip.mpr ⟨length, fun member => ?_⟩)
                obtain ⟨member', member''⟩ := List.of_mem_zip member
                exact inductionHypothesis _ member (left _ member') (right _ member'')
    | dict keys each inductionHypothesis =>
        cases json with
        | dict textual distinct left =>
            cases json' with
            | dict textual' distinct' right =>
                have names := fun item member => (textual item member).imp fun _ => And.left
                have names' := fun item member => (textual' item member).imp fun _ => And.left
                refine (agree_dict names names' distinct distinct').mpr ⟨keys, ?_⟩
                intro key value value' member member'
                exact inductionHypothesis key value value' member member' (left _ member)
                  (right _ member')

theorem Python.Value.Json.same_refl {value : Value} (json : value.Json) : value.Same value := by
  induction json with
  | none => exact .none
  | bool value => exact .bool value
  | int value => exact .int value
  | str encodable => exact .str _
  | list _ inductionHypothesis =>
      refine .list rfl fun pair member => ?_
      have equal : pair.1 = pair.2 := by
        obtain ⟨index, bound, rfl⟩ := List.mem_iff_getElem.mp member
        simp
      rw [← equal]
      exact inductionHypothesis pair.1 (List.of_mem_zip member).1
  | dict textual distinct _ inductionHypothesis =>
      refine .dict (List.Perm.refl _) fun key value value' member member' => ?_
      obtain rfl := congrArg Prod.snd (List.inj_on_of_nodup_map distinct member member' rfl)
      exact inductionHypothesis (key, value) member

end NetworkFinality
