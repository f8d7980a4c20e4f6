import Mathlib.Tactic.Ring
import NetworkFinality.Python.Text

/-!
# Python datetimes and their ISO 8601 text

A UTC datetime is a count of microseconds since the first instant of year 1, as
in the proleptic Gregorian calendar of Python's `datetime`. Broken-down fields
are computed by the algorithm of the standard library. `fromisoformat_isoformat`
is the round trip a text column relies on: the text drops zero microseconds, and
reading it back restores the same instant.
-/

namespace NetworkFinality.Python

/-- Microseconds from year 1 to the end of year 9999. -/
def maxMicros : Nat := 315537897600000000

/-- A datetime in UTC. -/
structure DateTime where
  micros : Nat
  inRange : micros < maxMicros
deriving DecidableEq

namespace DateTime

@[ext] theorem ext {left right : DateTime} (micros : left.micros = right.micros) : left = right := by
  cases left
  cases right
  cases micros
  rfl

instance : LT DateTime := ⟨fun left right => left.micros < right.micros⟩
instance : LE DateTime := ⟨fun left right => left.micros ≤ right.micros⟩

instance (left right : DateTime) : Decidable (left < right) :=
  inferInstanceAs (Decidable (left.micros < right.micros))

instance (left right : DateTime) : Decidable (left ≤ right) :=
  inferInstanceAs (Decidable (left.micros ≤ right.micros))

theorem lt_iff {left right : DateTime} : left < right ↔ left.micros < right.micros := Iff.rfl
theorem le_iff {left right : DateTime} : left ≤ right ↔ left.micros ≤ right.micros := Iff.rfl

/-- The datetime at a microsecond count, if Python can represent it. -/
def ofMicros (count : Int) : Except PyError DateTime :=
  if inside : 0 ≤ count ∧ count < maxMicros then .ok ⟨count.toNat, by omega⟩
  else .error .overflowError

theorem ofMicros_ok {count : Int} {result : DateTime} (valid : ofMicros count = .ok result) :
    (result.micros : Int) = count := by
  unfold ofMicros at valid
  split at valid
  · cases valid
    simp only
    omega
  · cases valid

@[simp] theorem ofMicros_micros (time : DateTime) : ofMicros time.micros = .ok time := by
  have bound := time.inRange
  unfold ofMicros
  rw [dif_pos (by omega)]
  rfl

/-- `later - earlier`, in microseconds. -/
def sub (later earlier : DateTime) : Int := later.micros - earlier.micros

/-- `time + timedelta`, which overflows outside years 1 to 9999. -/
def add (time : DateTime) (delta : Int) : Except PyError DateTime := ofMicros (time.micros + delta)

theorem add_ok {time result : DateTime} {delta : Int} (valid : time.add delta = .ok result) :
    (result.micros : Int) = time.micros + delta :=
  ofMicros_ok valid

end DateTime

/-- A timezone-aware datetime: the wall-clock fields and the offset from UTC. -/
structure AwareDateTime where
  wall : DateTime
  utcoffset : Int
  offsetInRange : -86400000000 < utcoffset ∧ utcoffset < 86400000000
deriving DecidableEq

/-- A UTC datetime as an aware one. -/
def AwareDateTime.utc (time : DateTime) : AwareDateTime := ⟨time, 0, by decide⟩

/-- `time.astimezone(timezone.utc)`. -/
def AwareDateTime.toUtc (time : AwareDateTime) : Except PyError DateTime :=
  DateTime.ofMicros (time.wall.micros - time.utcoffset)

@[simp] theorem AwareDateTime.toUtc_utc (time : DateTime) :
    (AwareDateTime.utc time).toUtc = .ok time := by
  simp [AwareDateTime.toUtc, AwareDateTime.utc]

/-! ### Datetimes with and without a timezone -/

/-- The local time of the machine: `astimezone(timezone.utc)` of a naive datetime. -/
class LocalTime where
  toUtc (wall : DateTime) (fold : Bool) : Except PyError DateTime

/-- A machine whose local time is UTC. -/
@[reducible] def LocalTime.utc : LocalTime := ⟨fun wall _ => .ok wall⟩

/-- Any `datetime`. A naive one has no `tzinfo`. The offset of an aware one depends on its
`fold` when its zone repeats or skips the time. -/
inductive PyDateTime where
  | naive (wall : DateTime) (fold : Bool)
  | aware (time : AwareDateTime) (folds : Bool)
deriving DecidableEq

namespace PyDateTime

/-- The datetime in some timezone: a naive one is in local time. -/
def localized [LocalTime] : PyDateTime → Except PyError AwareDateTime
  | .naive wall fold => AwareDateTime.utc <$> LocalTime.toUtc wall fold
  | .aware time _ => .ok time

/-- An aware datetime whose offset does not depend on `fold`: it equals its instant in UTC. -/
def Absolute : PyDateTime → Prop
  | .naive .. => False
  | .aware _ folds => folds = false

/-- `left == right`. Naive datetimes are compared by their wall clocks, and aware ones as
instants, but one whose offset depends on `fold` equals none of another timezone. -/
def Equal : PyDateTime → PyDateTime → Prop
  | .naive wall _, .naive wall' _ => wall = wall'
  | .aware time folds, .aware time' folds' => (time = time' ∧ folds = folds') ∨
      (folds = false ∧ folds' = false ∧
        (time.wall.micros : Int) - time.utcoffset = time'.wall.micros - time'.utcoffset)
  | _, _ => False

theorem Equal.refl (time : PyDateTime) : time.Equal time := by
  cases time with
  | naive wall fold => exact Eq.refl wall
  | aware time folds => exact .inl ⟨rfl, rfl⟩

/-- The absolute datetimes are the ones that equal what `astimezone` turns them into. -/
theorem equal_utc_iff [LocalTime] {time : PyDateTime} {aware : AwareDateTime} {instant : DateTime}
    (localized : time.localized = .ok aware) (inUtc : aware.toUtc = .ok instant) :
    (PyDateTime.aware (.utc instant) false).Equal time ↔ time.Absolute := by
  have same := DateTime.ofMicros_ok inUtc
  cases time with
  | naive wall fold => exact Iff.rfl
  | aware time folds =>
      obtain rfl := Except.ok.inj localized
      constructor
      · rintro (⟨-, rfl⟩ | ⟨-, rfl, -⟩) <;> rfl
      · intro absolute
        refine .inr ⟨rfl, absolute, ?_⟩
        rw [← same, AwareDateTime.utc, Int.sub_zero]

end PyDateTime

/-- The types of a timestamp that `astimezone` is called on. -/
class Timestamp (τ : Type) where
  aware : τ → Except PyError AwareDateTime

instance : Timestamp AwareDateTime := ⟨.ok⟩
instance [LocalTime] : Timestamp PyDateTime := ⟨PyDateTime.localized⟩

/-- `time.astimezone(timezone.utc)`. -/
def Timestamp.toUtc {τ : Type} [Timestamp τ] (time : τ) : Except PyError DateTime :=
  Timestamp.aware time >>= AwareDateTime.toUtc

@[simp] theorem Timestamp.aware_awareDateTime (time : AwareDateTime) :
    Timestamp.aware time = .ok time := rfl

@[simp] theorem Timestamp.toUtc_awareDateTime (time : AwareDateTime) :
    Timestamp.toUtc time = time.toUtc := rfl

/-! ### The calendar -/

def isLeap (year : Nat) : Bool := year % 4 == 0 && (year % 100 != 0 || year % 400 == 0)

/-- Days before January 1st of `year`. -/
def daysBeforeYear (year : Nat) : Nat :=
  (year - 1) * 365 + (year - 1) / 4 - (year - 1) / 100 + (year - 1) / 400

def daysInMonth (leap : Bool) (month : Nat) : Nat :=
  match month with
  | 2 => if leap then 29 else 28
  | 4 | 6 | 9 | 11 => 30
  | _ => 31

private theorem daysInMonth_le (leap : Bool) (month : Nat) : daysInMonth leap month ≤ 31 := by
  unfold daysInMonth
  cases leap <;> split <;> decide

def daysBeforeMonth (leap : Bool) (month : Nat) : Nat :=
  [0, 0, 31, 59, 90, 120, 151, 181, 212, 243, 273, 304, 334].getD month 0 +
    (if leap && 2 < month then 1 else 0)

/-- Month and day of the `n`-th day (from 0) of a year. -/
def monthDay (leap : Bool) (n : Nat) : Nat × Nat :=
  let estimate := (n + 50) / 32
  let month := if n < daysBeforeMonth leap estimate then estimate - 1 else estimate
  (month, n - daysBeforeMonth leap month + 1)

/-- Year, month and day of a day number (from 0), as `_ord2ymd` computes them. -/
def ord2ymd (ordinal : Nat) : Nat × Nat × Nat :=
  let n400 := ordinal / 146097
  let n := ordinal % 146097
  let n100 := n / 36524
  let n := n % 36524
  let n4 := n / 1461
  let n := n % 1461
  let n1 := n / 365
  let n := n % 365
  let year := n400 * 400 + 1 + n100 * 100 + n4 * 4 + n1
  if n1 = 4 ∨ n100 = 4 then (year - 1, 12, 31)
  else
    let leapyear := n1 == 3 && (n4 != 24 || n100 == 3)
    (year, monthDay leapyear n)

/-- The day number (from 0) of a date. -/
def ymd2ord (year month day : Nat) : Nat :=
  daysBeforeYear year + daysBeforeMonth (isLeap year) month + (day - 1)

private theorem monthDay_common : ∀ n < 365,
    let (month, day) := monthDay false n
    1 ≤ month ∧ month ≤ 12 ∧ 1 ≤ day ∧ day ≤ daysInMonth false month ∧
      daysBeforeMonth false month + (day - 1) = n := by
  decide +kernel

private theorem monthDay_leap : ∀ n < 366,
    let (month, day) := monthDay true n
    1 ≤ month ∧ month ≤ 12 ∧ 1 ≤ day ∧ day ≤ daysInMonth true month ∧
      daysBeforeMonth true month + (day - 1) = n := by
  decide +kernel

/-- Month and day are in range and add up to the day of the year. -/
theorem monthDay_spec (leap : Bool) {n : Nat} (inYear : n < 365) :
    1 ≤ (monthDay leap n).1 ∧ (monthDay leap n).1 ≤ 12 ∧ 1 ≤ (monthDay leap n).2 ∧
      (monthDay leap n).2 ≤ daysInMonth leap (monthDay leap n).1 ∧
      daysBeforeMonth leap (monthDay leap n).1 + ((monthDay leap n).2 - 1) = n := by
  cases leap with
  | false => exact monthDay_common n inYear
  | true => exact monthDay_leap n (by omega)

/-- The cycles of a day number: `b` counts centuries, `c` four-year cycles and
`d` years, and only a cycle's last day reaches the count 4. -/
private theorem cycles (ordinal : Nat) :
    ∃ a b c d e, ordinal = 146097 * a + 36524 * b + 1461 * c + 365 * d + e ∧ e < 365 ∧
      c ≤ 24 ∧ ((b ≤ 3 ∧ d ≤ 3) ∨ (b = 4 ∧ c = 0 ∧ d = 0 ∧ e = 0) ∨ (b ≤ 3 ∧ d = 4 ∧ e = 0)) ∧
      a = ordinal / 146097 ∧ b = ordinal % 146097 / 36524 ∧
      c = ordinal % 146097 % 36524 / 1461 ∧ d = ordinal % 146097 % 36524 % 1461 / 365 ∧
      e = ordinal % 146097 % 36524 % 1461 % 365 := by
  refine ⟨_, _, _, _, _, ?_, ?_, ?_, ?_, rfl, rfl, rfl, rfl, rfl⟩
  all_goals omega

/-- A year past `a` 400-year cycles, `b` centuries, `c` four-year cycles and `d`
years starts after as many days as these cycles have. -/
private theorem daysBeforeYear_cycles {a b c d : Nat} (century : b ≤ 3) (fourYears : c ≤ 24)
    (year : d ≤ 3) : daysBeforeYear (a * 400 + b * 100 + c * 4 + d + 1) =
      146097 * a + 36524 * b + 1461 * c + 365 * d := by
  have quarters : (a * 400 + b * 100 + c * 4 + d) / 4 = 100 * a + 25 * b + c := by omega
  have centuries : (a * 400 + b * 100 + c * 4 + d) / 100 = 4 * a + b := by omega
  have cycles : (a * 400 + b * 100 + c * 4 + d) / 400 = a := by omega
  simp only [daysBeforeYear, Nat.add_sub_cancel, quarters, centuries, cycles]
  omega

private theorem isLeap_cycles {a b c d : Nat} (century : b ≤ 3) (fourYears : c ≤ 24)
    (year : d ≤ 3) : isLeap (a * 400 + b * 100 + c * 4 + d + 1) =
      (d == 3 && (c != 24 || b == 3)) := by
  rw [Bool.eq_iff_iff]
  simp only [isLeap, Bool.and_eq_true, Bool.or_eq_true, beq_iff_eq, bne_iff_ne]
  omega

/-- The date of a day number is a valid date and has that day number. -/
theorem ymd2ord_ord2ymd (ordinal : Nat) :
    1 ≤ (ord2ymd ordinal).1 ∧ 1 ≤ (ord2ymd ordinal).2.1 ∧ (ord2ymd ordinal).2.1 ≤ 12 ∧
      1 ≤ (ord2ymd ordinal).2.2 ∧
      (ord2ymd ordinal).2.2 ≤ daysInMonth (isLeap (ord2ymd ordinal).1) (ord2ymd ordinal).2.1 ∧
      ymd2ord (ord2ymd ordinal).1 (ord2ymd ordinal).2.1 (ord2ymd ordinal).2.2 = ordinal := by
  obtain ⟨a, b, c, d, e, whole, small, fourYears, shape, ha, hb, hc, hd, he⟩ := cycles ordinal
  simp only [ord2ymd, ← ha, ← hb, ← hc, ← hd, ← he]
  rcases shape with ⟨century, year⟩ | ⟨rfl, rfl, rfl, rfl⟩ | ⟨century, rfl, rfl⟩
  · rw [if_neg (by omega),
      show a * 400 + 1 + b * 100 + c * 4 + d = a * 400 + b * 100 + c * 4 + d + 1 by omega]
    obtain ⟨lower, upper, first, last, total⟩ :=
      monthDay_spec (d == 3 && (c != 24 || b == 3)) small
    simp only [ymd2ord, isLeap_cycles century fourYears year,
      daysBeforeYear_cycles century fourYears year]
    exact ⟨by omega, lower, upper, first, last, by omega⟩
  · -- The last day of a 400-year cycle.
    rw [if_pos (by omega),
      show a * 400 + 1 + 4 * 100 + 0 * 4 + 0 - 1 = a * 400 + 3 * 100 + 24 * 4 + 3 + 1 by omega]
    simp only [ymd2ord, isLeap_cycles (Nat.le_refl 3) (Nat.le_refl 24) (Nat.le_refl 3),
      daysBeforeYear_cycles (Nat.le_refl 3) (Nat.le_refl 24) (Nat.le_refl 3)]
    exact ⟨by omega, by decide, by decide, by decide, by decide, by simp [daysBeforeMonth]; omega⟩
  · -- The last day of a leap year.
    rw [if_pos (by omega),
      show a * 400 + 1 + b * 100 + c * 4 + 4 - 1 = a * 400 + b * 100 + c * 4 + 3 + 1 by omega]
    have leap : c ≠ 24 ∨ b = 3 := by
      have bound := Nat.mod_lt (ordinal % 146097) (show 0 < 36524 by decide)
      omega
    have isLeapYear : (3 == 3 && (c != 24 || b == 3)) = true := by
      simpa using leap
    simp only [ymd2ord, isLeap_cycles century fourYears (Nat.le_refl 3), isLeapYear,
      daysBeforeYear_cycles century fourYears (Nat.le_refl 3)]
    exact ⟨by omega, by decide, by decide, by decide, by decide, by simp [daysBeforeMonth]; omega⟩

/-! ### ISO 8601 text -/

/-- The fields of a datetime. -/
structure Fields where
  year : Nat
  month : Nat
  day : Nat
  hour : Nat
  minute : Nat
  second : Nat
  microsecond : Nat
deriving DecidableEq

/-- The ranges the `datetime` constructor checks. -/
def Fields.Valid (fields : Fields) : Prop :=
  1 ≤ fields.year ∧ fields.year ≤ 9999 ∧ 1 ≤ fields.month ∧ fields.month ≤ 12 ∧
    1 ≤ fields.day ∧ fields.day ≤ daysInMonth (isLeap fields.year) fields.month ∧
    fields.hour < 24 ∧ fields.minute < 60 ∧ fields.second < 60 ∧ fields.microsecond < 1000000

instance (fields : Fields) : Decidable fields.Valid := by
  unfold Fields.Valid
  infer_instance

def Fields.micros (fields : Fields) : Nat :=
  (ymd2ord fields.year fields.month fields.day * 86400 + fields.hour * 3600 +
    fields.minute * 60 + fields.second) * 1000000 + fields.microsecond

namespace DateTime

def fields (time : DateTime) : Fields :=
  let seconds := time.micros / 1000000
  let date := ord2ymd (seconds / 86400)
  ⟨date.1, date.2.1, date.2.2, seconds % 86400 / 3600, seconds % 3600 / 60, seconds % 60,
    time.micros % 1000000⟩

/-- `datetime(year, month, …, tzinfo=timezone.utc)`. -/
def ofFields (fields : Fields) : Except PyError DateTime :=
  if fields.Valid then ofMicros fields.micros else .error .valueError

theorem fields_micros (time : DateTime) : time.fields.micros = time.micros := by
  have calendar := ymd2ord_ord2ymd (time.micros / 1000000 / 86400)
  simp only [fields, Fields.micros]
  rw [calendar.2.2.2.2.2]
  omega

theorem fields_valid (time : DateTime) : time.fields.Valid := by
  obtain ⟨year, month, month', day, day', ordinal⟩ :=
    ymd2ord_ord2ymd (time.micros / 1000000 / 86400)
  have bound : time.micros < 315537897600000000 := time.inRange
  have lastYear : (ord2ymd (time.micros / 1000000 / 86400)).1 ≤ 9999 := by
    -- A year past 9999 starts after the last representable day.
    generalize ord2ymd (time.micros / 1000000 / 86400) = date at ordinal ⊢
    unfold ymd2ord daysBeforeYear at ordinal
    omega
  refine ⟨year, lastYear, month, month', day, day', ?_, ?_, ?_, ?_⟩
  all_goals
    simp only [fields]
    omega

@[simp] theorem ofFields_fields (time : DateTime) : ofFields time.fields = .ok time := by
  rw [ofFields, if_pos time.fields_valid, fields_micros, ofMicros_micros]

end DateTime

def digit (value : Nat) : CodePoint := .scalar (Char.ofNat (48 + value % 10))

/-- A number in exactly `width` decimal digits. -/
def digits : Nat → Nat → Str
  | 0, _ => []
  | width + 1, value => digits width (value / 10) ++ [digit value]

def digitValue : CodePoint → Option Nat
  | .scalar value => if 48 ≤ value.toNat ∧ value.toNat ≤ 57 then some (value.toNat - 48) else none
  | .surrogate _ => none

/-- Read `width` decimal digits from the front of a text, after the number read
so far. -/
def readDigits : Nat → Nat → Str → Option (Nat × Str)
  | 0, total, rest => some (total, rest)
  | _ + 1, _, [] => none
  | width + 1, total, x :: rest => do
      let value ← digitValue x
      readDigits width (total * 10 + value) rest

/-- Read a literal from the front of a text. -/
def readLiteral : Str → Str → Option Str
  | [], rest => some rest
  | _ :: _, [] => none
  | x :: xs, y :: rest => if x = y then readLiteral xs rest else none

@[simp] theorem digitValue_digit (value : Nat) : digitValue (digit value) = some (value % 10) := by
  have small : ∀ n < 10, digitValue (digit n) = some n := by decide
  have reduce : digit value = digit (value % 10) := by simp [digit]
  rw [reduce, small _ (Nat.mod_lt _ (by decide))]

@[simp] theorem readLiteral_append (literal rest : Str) :
    readLiteral literal (literal ++ rest) = some rest := by
  induction literal with
  | nil => cases rest <;> rfl
  | cons x xs inductionHypothesis => simp [readLiteral, inductionHypothesis]

/-- Reading more digits than one block holds reads the next block too. -/
theorem readDigits_add (first second total : Nat) (text : Str) :
    readDigits (first + second) total text =
      (readDigits first total text).bind fun (value, rest) => readDigits second value rest := by
  induction first generalizing total text with
  | zero => simp [readDigits]
  | succ first inductionHypothesis =>
      rw [Nat.succ_add_eq_add_succ, Nat.add_succ]
      cases text with
      | nil => rfl
      | cons x rest =>
          simp only [readDigits]
          cases digitValue x with
          | none => rfl
          | some value => exact inductionHypothesis _ _

/-- A number within its width is read back from its digits. -/
theorem readDigits_digits (width value total : Nat) (rest : Str) (fits : value < 10 ^ width) :
    readDigits width total (digits width value ++ rest) = some (total * 10 ^ width + value, rest) := by
  induction width generalizing value rest with
  | zero => simp_all [readDigits, digits]
  | succ width inductionHypothesis =>
      have shorter : value / 10 < 10 ^ width := by
        rw [Nat.pow_succ] at fits
        omega
      rw [readDigits_add, digits, List.append_assoc, inductionHypothesis _ _ shorter]
      simp only [Option.bind_some, List.singleton_append, readDigits, digitValue_digit,
        Option.bind_eq_bind, Option.some.injEq, Prod.mk.injEq, and_true]
      rw [Nat.pow_succ]
      ring_nf
      omega

theorem digits_encodable (width value : Nat) : Str.Encodable (digits width value) := by
  induction width generalizing value with
  | zero => simp [digits, Str.Encodable]
  | succ width inductionHypothesis =>
      rw [digits, Str.encodable_append]
      exact ⟨inductionHypothesis _, by simp [Str.Encodable, digit]⟩

namespace DateTime

/-- Date and time to the second, as every ISO form starts. -/
def isoSeconds (time : DateTime) : Str :=
  let fields := time.fields
  digits 4 fields.year ++ ("-" : Str) ++ digits 2 fields.month ++ ("-" : Str) ++
    digits 2 fields.day ++ ("T" : Str) ++ digits 2 fields.hour ++ (":" : Str) ++
    digits 2 fields.minute ++ (":" : Str) ++ digits 2 fields.second

/-- `time.isoformat()`: the fraction is left out when it is zero. -/
def isoformat (time : DateTime) : Str :=
  let fraction := time.fields.microsecond
  time.isoSeconds ++ (if fraction = 0 then [] else ("." : Str) ++ digits 6 fraction) ++
    ("+00:00" : Str)

/-- `time.isoformat(timespec="microseconds").replace("+00:00", "Z")`. -/
def isoformatMicroseconds (time : DateTime) : Str :=
  time.isoSeconds ++ ("." : Str) ++ digits 6 time.fields.microsecond ++ ("Z" : Str)

/-- The optional fraction of a second. -/
def readFraction (text : Str) : Option (Nat × Str) :=
  match readLiteral ("." : Str) text with
  | some rest => readDigits 6 0 rest
  | none => some (0, text)

def readFields (text : Str) : Option (Fields × Str) := do
  let (year, text) ← readDigits 4 0 text
  let text ← readLiteral ("-" : Str) text
  let (month, text) ← readDigits 2 0 text
  let text ← readLiteral ("-" : Str) text
  let (day, text) ← readDigits 2 0 text
  let text ← readLiteral ("T" : Str) text
  let (hour, text) ← readDigits 2 0 text
  let text ← readLiteral (":" : Str) text
  let (minute, text) ← readDigits 2 0 text
  let text ← readLiteral (":" : Str) text
  let (second, text) ← readDigits 2 0 text
  let (microsecond, text) ← readFraction text
  return (⟨year, month, day, hour, minute, second, microsecond⟩, text)

/-- `datetime.fromisoformat(text)`, for the UTC texts `isoformat` writes. -/
def fromisoformat (text : Str) : Except PyError DateTime :=
  match readFields text with
  | some (fields, rest) =>
      if rest = ("+00:00" : Str) then ofFields fields else .error .valueError
  | none => .error .valueError

theorem readFraction_isoformat (fraction : Nat) (fits : fraction < 1000000) :
    readFraction ((if fraction = 0 then [] else ("." : Str) ++ digits 6 fraction) ++
      ("+00:00" : Str)) = some (fraction, ("+00:00" : Str)) := by
  by_cases whole : fraction = 0
  · subst whole
    rfl
  · rw [if_neg whole, List.append_assoc, readFraction, readLiteral_append]
    simpa using readDigits_digits 6 fraction 0 ("+00:00" : Str) fits

/-- The fields of a datetime are read back in front of its fraction of a second. -/
theorem readFields_isoSeconds (time : DateTime) {fraction rest : Str}
    (read : readFraction fraction = some (time.fields.microsecond, rest)) :
    readFields (time.isoSeconds ++ fraction) = some (time.fields, rest) := by
  obtain ⟨-, year, -, month, -, day, hour, minute, second, microsecond⟩ := time.fields_valid
  have days : time.fields.day < 10 ^ 2 := by
    have longest := daysInMonth_le (isLeap time.fields.year) time.fields.month
    omega
  simp only [readFields, isoSeconds, List.append_assoc]
  rw [readDigits_digits 4 _ 0 _ (by omega)]
  simp only [Option.bind_eq_bind, Option.bind_some, readLiteral_append]
  rw [readDigits_digits 2 _ 0 _ (by omega)]
  simp only [Option.bind_some, readLiteral_append]
  rw [readDigits_digits 2 _ 0 _ days]
  simp only [Option.bind_some, readLiteral_append]
  rw [readDigits_digits 2 _ 0 _ (by omega)]
  simp only [Option.bind_some, readLiteral_append]
  rw [readDigits_digits 2 _ 0 _ (by omega)]
  simp only [Option.bind_some, readLiteral_append]
  rw [readDigits_digits 2 _ 0 _ (by omega)]
  simp only [Option.bind_some, read]
  simp

/-- Reading the ISO text of a datetime restores it. -/
@[simp] theorem fromisoformat_isoformat (time : DateTime) :
    fromisoformat time.isoformat = .ok time := by
  obtain ⟨-, -, -, -, -, -, -, -, -, microsecond⟩ := time.fields_valid
  have read := readFields_isoSeconds time (readFraction_isoformat _ microsecond)
  rw [fromisoformat, isoformat, List.append_assoc, read]
  simp

/-- Datetimes with one canonical text are one datetime. -/
theorem isoformatMicroseconds_injective {left right : DateTime}
    (same : left.isoformatMicroseconds = right.isoformatMicroseconds) : left = right := by
  have read : ∀ time : DateTime,
      readFields time.isoformatMicroseconds = some (time.fields, ("Z" : Str)) := by
    intro time
    obtain ⟨-, -, -, -, -, -, -, -, -, microsecond⟩ := time.fields_valid
    rw [isoformatMicroseconds, List.append_assoc, List.append_assoc]
    apply readFields_isoSeconds
    rw [readFraction, readLiteral_append]
    simpa using readDigits_digits 6 _ 0 ("Z" : Str) microsecond
  have fields : some (left.fields, ("Z" : Str)) = some (right.fields, ("Z" : Str)) := by
    rw [← read left, ← read right, same]
  apply DateTime.ext
  rw [← fields_micros left, ← fields_micros right, (Prod.mk.inj (Option.some.inj fields)).1]

theorem isoformatMicroseconds_encodable (time : DateTime) :
    Str.Encodable time.isoformatMicroseconds := by
  have literal : ∀ text : String, Str.Encodable (Str.ofString text) := Str.encodable_ofString
  unfold isoformatMicroseconds isoSeconds
  simp only [Str.encodable_append, digits_encodable, literal, and_true]

example : isoformat ⟨63923363400000000, by decide⟩ = ("2026-08-26T17:50:00+00:00" : Str) := by
  decide +kernel

end DateTime
end NetworkFinality.Python
