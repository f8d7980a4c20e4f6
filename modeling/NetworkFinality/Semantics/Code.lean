import Mathlib.Data.List.Basic

/-!
# Codes that are read off unambiguously

A code writes values as words. It is readable in front of certain continuations when
a word and what follows it determine the value and where its word ends, so that
nothing has to be known about the length of a word. Readable codes stay readable when
they are put one after the other, and when their words are listed up to a closing
symbol.
-/

namespace NetworkFinality.Semantics

variable {α β σ : Type}

/-- How values are written. A value may have no word. -/
abbrev Code (α σ : Type) := α → List σ → Prop

namespace Code

/-- In front of the continuations, the word of the value is no other value's, and ends
where it ends. -/
def ReadableAt (writes : Code α σ) (follows : List σ → Prop) (value : α) : Prop :=
  ∀ ⦃other : α⦄ ⦃word word' rest rest' : List σ⦄, writes value word → writes other word' →
    follows rest → follows rest' → word ++ rest = word' ++ rest' → value = other ∧ rest = rest'

variable {writes : Code α σ} {follows : List σ → Prop}

/-- A run of symbols of one kind ends where another symbol, or nothing, follows. -/
theorem run_append_inj {kind : σ → Prop} {word word' rest rest' : List σ}
    (run : ∀ symbol ∈ word, kind symbol) (run' : ∀ symbol ∈ word', kind symbol)
    (stops : ∀ symbol ∈ rest.head?, ¬ kind symbol) (stops' : ∀ symbol ∈ rest'.head?, ¬ kind symbol)
    (same : word ++ rest = word' ++ rest') : word = word' ∧ rest = rest' := by
  induction word generalizing word' with
  | nil =>
      cases word' with
      | nil => exact ⟨rfl, same⟩
      | cons symbol word' =>
          rw [List.nil_append] at same
          exact absurd (run' symbol (by simp)) (stops symbol (by simp [same]))
  | cons symbol word inductionHypothesis =>
      cases word' with
      | nil =>
          rw [List.nil_append] at same
          exact absurd (run symbol (by simp)) (stops' symbol (by simp [← same]))
      | cons symbol' word' =>
          obtain ⟨rfl, further⟩ := List.cons.inj same
          obtain ⟨rfl, remains⟩ := inductionHypothesis
            (fun other member => run other (List.mem_cons_of_mem _ member))
            (fun other member => run' other (List.mem_cons_of_mem _ member)) further
          exact ⟨rfl, remains⟩

/-- Two codes, one after the other with a separator in between. -/
def Joined (first : Code α σ) (separator : σ) (second : Code β σ) : Code (α × β) σ :=
  fun pair word => ∃ left right, first pair.1 left ∧ second pair.2 right ∧
    word = left ++ separator :: right

/-- A joined word is readable where its second part is. -/
theorem ReadableAt.joined {first : Code α σ} {separator : σ} {second : Code β σ} {pair : α × β}
    (left : first.ReadableAt (fun rest => ∃ further, rest = separator :: further) pair.1)
    (right : second.ReadableAt follows pair.2) :
    (first.Joined separator second).ReadableAt follows pair := by
  rintro other _ _ rest rest' ⟨word, further, written, writtenFurther, rfl⟩
    ⟨word', further', written', writtenFurther', rfl⟩ followed followed' same
  simp only [List.append_assoc, List.cons_append] at same
  obtain ⟨equal, remains⟩ := left written written' ⟨_, rfl⟩ ⟨_, rfl⟩ same
  obtain ⟨-, remains⟩ := List.cons.inj remains
  obtain ⟨equal', rfl⟩ := right writtenFurther writtenFurther' followed followed' remains
  exact ⟨Prod.ext equal equal', rfl⟩

/-- The words of a list of values, with a separator between them. -/
inductive Separated (writes : Code α σ) (separator : σ) : Code (List α) σ where
  | nil : Separated writes separator [] []
  | single {value : α} {word : List σ} (written : writes value word) :
      Separated writes separator [value] word
  | cons {value next : α} {values : List α} {word words : List σ} (written : writes value word)
      (further : Separated writes separator (next :: values) words) :
      Separated writes separator (value :: next :: values) (word ++ separator :: words)

/-- A separated list is readable up to a symbol that closes it. -/
theorem ReadableAt.separated {separator closing : σ} (different : separator ≠ closing)
    (afterSeparator : ∀ rest, follows (separator :: rest))
    (afterClosing : ∀ rest, follows (closing :: rest))
    (opens : ∀ ⦃value : α⦄ ⦃word : List σ⦄, writes value word →
      ∃ first rest, word = first :: rest ∧ first ≠ closing)
    {values : List α} (each : ∀ value ∈ values, writes.ReadableAt follows value) :
    (writes.Separated separator).ReadableAt (fun rest => ∃ further, rest = closing :: further)
      values := by
  have unopened : ∀ ⦃value : α⦄ ⦃word rest further : List σ⦄, writes value word →
      word ++ rest ≠ closing :: further := by
    intro value word rest further written same
    obtain ⟨first, others, rfl, other⟩ := opens written
    exact other (List.cons.inj same).1
  rintro others word word' _ _ written written' ⟨rest, rfl⟩ ⟨rest', rfl⟩ same
  induction written generalizing others word' with
  | nil =>
      cases written' with
      | nil => exact ⟨rfl, same⟩
      | single written' => exact absurd same.symm (unopened written')
      | cons written' _ =>
          rw [List.append_assoc] at same
          exact absurd same.symm (unopened written')
  | single written =>
      cases written' with
      | nil => exact absurd same (unopened written)
      | single written' =>
          obtain ⟨rfl, remains⟩ := each _ (by simp) written written' (afterClosing _)
            (afterClosing _) same
          exact ⟨rfl, remains⟩
      | cons written' _ =>
          rw [List.append_assoc, List.cons_append] at same
          obtain ⟨-, remains⟩ := each _ (by simp) written written' (afterClosing _)
            (afterSeparator _) same
          exact absurd (List.cons.inj remains).1.symm different
  | cons written further inductionHypothesis =>
      rw [List.append_assoc, List.cons_append] at same
      cases written' with
      | nil => exact absurd same (unopened written)
      | single written' =>
          obtain ⟨-, remains⟩ := each _ (by simp) written written' (afterSeparator _)
            (afterClosing _) same
          exact absurd (List.cons.inj remains).1 different
      | cons written' further' =>
          rw [List.append_assoc, List.cons_append] at same
          obtain ⟨rfl, remains⟩ := each _ (by simp) written written' (afterSeparator _)
            (afterSeparator _) same
          obtain ⟨equal, remains⟩ := inductionHypothesis
            (fun value member => each value (List.mem_cons_of_mem _ member)) further'
            (List.cons.inj remains).2
          exact ⟨congrArg (List.cons _) equal, remains⟩

end Code
end NetworkFinality.Semantics
