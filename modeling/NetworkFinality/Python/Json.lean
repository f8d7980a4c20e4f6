import Mathlib.Data.List.Sort
import Mathlib.Data.Rat.Defs
import NetworkFinality.Python.DateTime

/-!
# Python values and `json.dumps`

`Value` holds what a JSON-like Python object can be before it is encoded,
including what the encoder rejects: floats outside the finite range, dict keys of
mixed types, and objects of other classes. `dumps` is `json.dumps` with the
options `ensure_ascii=False`, `sort_keys=True`, compact separators and
`allow_nan=False`.
-/

namespace NetworkFinality.Python

/-- A Python float. A finite one is its exact value and the text `float.__repr__`
writes, which distinguishes finite floats. -/
inductive PyFloat where
  | finite (value : Rat) (repr : Str)
  | infinity
  | negativeInfinity
  | nan
deriving DecidableEq

/-- A dict key. Keys of every other class are rejected by the encoder. -/
inductive Key where
  | str (text : Str)
  | int (value : Int)
  | bool (value : Bool)
  | float (value : PyFloat)
  | none
  | other
deriving DecidableEq

/-- A Python object handed to the encoder. -/
inductive Value where
  | none
  | bool (value : Bool)
  | int (value : Int)
  | float (value : PyFloat)
  | str (text : Str)
  | enum (value : Str)
  | datetime (time : AwareDateTime)
  | list (items : List Value)
  | dict (items : List (Key × Value))
  | other

/-- A dict item under a literal string key. -/
def Value.field (name : String) (value : Value) : Key × Value := (.str name, value)

/-- An optional attribute: `None` or its value. -/
def Value.optional {α : Type} (encode : α → Value) : Option α → Value
  | .none => .none
  | .some value => encode value

/-! ### Sorting dict items -/

/-- The number a numeric key compares as: a rank for the infinities, then a value.
`nan` compares with nothing. -/
def Key.number : Key → Option (Int × Rat)
  | .int value => .some (0, value)
  | .bool value => .some (0, if value then 1 else 0)
  | .float (.finite value _) => .some (0, value)
  | .float .infinity => .some (1, 0)
  | .float .negativeInfinity => .some (-1, 0)
  | _ => .none

def Key.isText : Key → Bool
  | .str _ => true
  | _ => false

def Key.isNumeric : Key → Bool
  | .int _ | .bool _ | .float _ => true
  | _ => false

/-- The order `sorted` uses between two text keys or two numeric keys. -/
def Key.le : Key → Key → Bool
  | .str left, .str right => Str.le left right
  | left, right =>
      match left.number, right.number with
      | .some (rank, value), .some (rank', value') =>
          rank < rank' || (rank == rank' && decide (value ≤ value'))
      | _, _ => true

/-- `sorted(items)`: keys of different classes do not compare. -/
def sortItems {α : Type} (items : List (Key × α)) : Except PyError (List (Key × α)) :=
  if items.length ≤ 1 ∨ items.all (·.1.isText) ∨ items.all (·.1.isNumeric) then
    .ok (items.insertionSort fun left right => left.1.le right.1)
  else .error .typeError

/-! ### The text of a value -/

/-- Python refuses to write integers of more than 4300 digits. -/
def intText (value : Int) : Except PyError Str :=
  if value.natAbs < 10 ^ 4300 then .ok (Str.ofString (toString value)) else .error .valueError

def boolText (value : Bool) : Str := if value then ("true" : Str) else ("false" : Str)

def floatText : PyFloat → Except PyError Str
  | .finite _ repr => .ok repr
  | _ => .error .valueError

def hexDigit (value : Nat) : CodePoint :=
  .scalar (if value < 10 then Char.ofNat (48 + value) else Char.ofNat (87 + value))

/-- One code point inside a JSON string. -/
def escape (x : CodePoint) : Str :=
  if x.code = 0x22 then ("\\\"" : Str)
  else if x.code = 0x5C then ("\\\\" : Str)
  else if x.code = 0x0A then ("\\n" : Str)
  else if x.code = 0x0D then ("\\r" : Str)
  else if x.code = 0x09 then ("\\t" : Str)
  else if x.code = 0x0C then ("\\f" : Str)
  else if x.code = 0x08 then ("\\b" : Str)
  else if x.code < 0x20 then ("\\u00" : Str) ++ [hexDigit (x.code / 16), hexDigit (x.code % 16)]
  else [x]

def quote (text : Str) : Str := ("\"" : Str) ++ text.flatMap escape ++ ("\"" : Str)

def keyText : Key → Except PyError Str
  | .str text => .ok (quote text)
  | .int value => do return quote (← intText value)
  | .bool value => .ok (quote (boolText value))
  | .float value => do return quote (← floatText value)
  | .none => .ok (quote ("null" : Str))
  | .other => .error .typeError

/-- Items separated by commas. -/
def commaSeparated : List Str → Str
  | [] => []
  | [text] => text
  | text :: rest => text ++ ("," : Str) ++ commaSeparated rest

mutual
/-- `json.dumps` of one value. -/
def dumps : Value → Except PyError Str
  | .none => .ok ("null" : Str)
  | .bool value => .ok (boolText value)
  | .int value => intText value
  | .float value => floatText value
  | .str text => .ok (quote text)
  | .enum text => .ok (quote text)
  | .datetime _ => .error .typeError
  | .list items => do
      let texts ← dumpsList items
      return ("[" : Str) ++ commaSeparated texts ++ ("]" : Str)
  | .dict items => do
      -- Items are encoded where they stand and sorted by their keys.
      let texts ← dumpsItems items
      let sorted ← sortItems texts
      return ("\x7b" : Str) ++ commaSeparated (sorted.map (·.2)) ++ ("\x7d" : Str)
  | .other => .error .typeError

def dumpsList : List Value → Except PyError (List Str)
  | [] => .ok []
  | value :: rest => do
      let text ← dumps value
      let texts ← dumpsList rest
      return text :: texts

def dumpsItems : List (Key × Value) → Except PyError (List (Key × Str))
  | [] => .ok []
  | (key, value) :: rest => do
      let name ← keyText key
      let text ← dumps value
      let texts ← dumpsItems rest
      return (key, name ++ (":" : Str) ++ text) :: texts
end

end NetworkFinality.Python
