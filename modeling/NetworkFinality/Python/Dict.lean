import Mathlib.Data.Finmap
import NetworkFinality.Python.Text

/-!
# Python dicts with string keys

A dict is a finite map. Two dicts with the same items are equal, whatever order
they were filled in, as they are for Python's `==`.
-/

namespace NetworkFinality.Python

/-- A `dict[str, α]`. -/
abbrev Dict (α : Type) := Finmap fun _ : Str => α

namespace Dict

variable {α : Type}

/-- `dict[key] = value`. -/
def set (dict : Dict α) (key : Str) (value : α) : Dict α := Finmap.insert key value dict

/-- `dict.get(key)`. -/
def get (dict : Dict α) (key : Str) : Option α := Finmap.lookup key dict

@[ext] theorem ext {left right : Dict α} (same : ∀ key, left.get key = right.get key) :
    left = right := Finmap.ext_lookup same

@[simp] theorem get_empty (key : Str) : (∅ : Dict α).get key = none := Finmap.lookup_empty key

theorem get_set (dict : Dict α) (key other : Str) (value : α) :
    (dict.set key value).get other = if other = key then some value else dict.get other := by
  by_cases same : other = key
  · subst same
    rw [if_pos rfl]
    exact Finmap.lookup_insert dict
  · rw [if_neg same]
    exact Finmap.lookup_insert_of_ne dict same

@[simp] theorem get_set_self (dict : Dict α) (key : Str) (value : α) :
    (dict.set key value).get key = some value := by
  rw [get_set, if_pos rfl]

theorem get_set_ne (dict : Dict α) {key other : Str} (value : α) (different : other ≠ key) :
    (dict.set key value).get other = dict.get other := by
  rw [get_set, if_neg different]

theorem get_eq_none {dict : Dict α} {key : Str} : dict.get key = none ↔ key ∉ dict :=
  Finmap.lookup_eq_none

theorem mem_iff_get {dict : Dict α} {key : Str} : key ∈ dict ↔ ∃ value, dict.get key = some value :=
  Finmap.mem_iff

/-- A new key makes a dict one longer. -/
theorem card_set {dict : Dict α} {key : Str} {value : α} (absent : key ∉ dict) :
    (dict.set key value).keys.card = dict.keys.card + 1 := by
  have keys : (dict.set key value).keys = insert key dict.keys := by
    ext other
    rw [Finset.mem_insert, Finmap.mem_keys, Finmap.mem_keys]
    exact Finmap.mem_insert
  rw [keys, Finset.card_insert_of_notMem fun member => absent (Finmap.mem_keys.mp member)]

end Dict
end NetworkFinality.Python
