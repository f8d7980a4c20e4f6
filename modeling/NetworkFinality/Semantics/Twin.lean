import NetworkFinality.Semantics.Procedure

/-!
# Two runs side by side

Two procedures on two states may end alike: both return, or both exit for the same
reason. The values they return and the states they leave are related. `bind` composes
such pairs of runs, and a procedure whose operations do not tell two related states
apart ends alike on both.
-/

namespace NetworkFinality.Semantics

variable {I : Interface} {α β γ δ ε S T : Type}

/-- Two ends of runs that agree: related values and states, or one reason to exit. -/
inductive EndsAlike (values : α → β → Prop) (returned exited : S → T → Prop) :
    Except ε α × S → Except ε β × T → Prop where
  | ok {value : α} {value' : β} {state : S} {state' : T} (same : values value value')
      (after : returned state state') :
      EndsAlike values returned exited (.ok value, state) (.ok value', state')
  | error {reason : ε} {state : S} {state' : T} (after : exited state state') :
      EndsAlike values returned exited (.error reason, state) (.error reason, state')

namespace EndsAlike

variable {values : α → β → Prop} {returned exited : S → T → Prop} {left : Except ε α × S}
  {right : Except ε β × T}

theorem mono {values' : α → β → Prop} {returned' exited' : S → T → Prop}
    (alike : EndsAlike values returned exited left right)
    (same : ∀ {value value'}, values value value' → values' value value')
    (after : ∀ {state state'}, returned state state' → returned' state state')
    (afterExit : ∀ {state state'}, exited state state' → exited' state state') :
    EndsAlike values' returned' exited' left right := by
  cases alike with
  | ok related after' => exact .ok (same related) (after after')
  | error after' => exact .error (afterExit after')

/-- Ends that agree on equal values have one outcome. -/
theorem outcome {left right : Except ε α × S} {returned exited : S → S → Prop}
    (alike : EndsAlike Eq returned exited left right) : left.1 = right.1 := by
  cases alike with
  | ok same after => rw [same]
  | error after => rfl

/-- The states at the end are related in either case. -/
theorem states {related : S → T → Prop} (alike : EndsAlike values related related left right) :
    related left.2 right.2 := by
  cases alike with
  | ok same after => exact after
  | error after => exact after

/-- Compositions end alike when their parts do. -/
theorem bind (handler : Handler I S) {middle related exited : S → S → Prop} {values : α → β → Prop}
    {results : γ → δ → Prop} {p : Procedure I ε α} {q : Procedure I ε β}
    {rest : α → Procedure I ε γ} {rest' : β → Procedure I ε δ} {left right : S}
    (first : EndsAlike values middle exited (p.run handler left) (q.run handler right))
    (second : ∀ value value' state state', p.run handler left = (.ok value, state) →
      q.run handler right = (.ok value', state') → values value value' → middle state state' →
      EndsAlike results related exited ((rest value).run handler state)
        ((rest' value').run handler state')) :
    EndsAlike results related exited ((p >>= rest).run handler left)
      ((q >>= rest').run handler right) := by
  rw [Procedure.run_bind, Procedure.run_bind]
  rcases ran : p.run handler left with ⟨outcome, state⟩
  rcases ran' : q.run handler right with ⟨outcome', state'⟩
  rw [ran, ran'] at first
  cases first with
  | ok same after => exact second _ _ _ _ ran ran' same after
  | error after => exact .error after

/-- Leaving under one condition, two procedures go on alike. -/
theorem exitIf_bind (handler : Handler I S) {returned exited : S → S → Prop} {values : α → β → Prop}
    {condition : Prop} [Decidable condition] {reason : ε} {rest : Unit → Procedure I ε α}
    {rest' : Unit → Procedure I ε β} {left right : S} (exits : exited left right)
    (second : EndsAlike values returned exited ((rest ()).run handler left)
      ((rest' ()).run handler right)) :
    EndsAlike values returned exited ((Procedure.exitIf condition reason >>= rest).run handler left)
      ((Procedure.exitIf condition reason >>= rest').run handler right) := by
  rw [Procedure.exitIf_bind, Procedure.exitIf_bind]
  by_cases holds : condition
  · rw [if_pos holds, if_pos holds]
    exact .error exits
  · rw [if_neg holds, if_neg holds]
    exact second

/-- A procedure whose operations do not tell related states apart ends alike on both. -/
theorem of_uses (handler : Handler I S) {related : S → S → Prop} {permitted : I.Op → Prop}
    (indistinct : ∀ op, permitted op → ∀ left right, related left right →
      (handler op left).1 = (handler op right).1 ∧
        related (handler op left).2 (handler op right).2)
    {p : Procedure I ε α} (uses : p.Uses permitted) {left right : S} (before : related left right) :
    EndsAlike Eq related related (p.run handler left) (p.run handler right) := by
  obtain ⟨same, after⟩ := Procedure.run_related handler related indistinct uses before
  rcases ran : p.run handler left with ⟨outcome, state⟩
  rcases ran' : p.run handler right with ⟨outcome', state'⟩
  rw [ran, ran'] at same after
  obtain rfl : outcome = outcome' := same
  cases outcome with
  | ok value => exact .ok rfl after
  | error reason => exact .error after

end EndsAlike
end NetworkFinality.Semantics
