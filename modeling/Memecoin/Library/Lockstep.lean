/-
This file relates two runs of fallible code. Two results are in lockstep when
both are failures with the same error, or both are values and the values are
related. Lockstep passes through the sequencing of fallible steps, and through
the runs of a transactional machine: where related states execute every action
in lockstep, they are still related after every run.
-/

import Memecoin.Library.Checked
import Memecoin.Library.Machine

namespace Lockstep

universe u v w x

variable {Error : Type u} {First : Type v} {Second : Type w}

/-- The same error, or related values. -/
inductive Results (related : First → Second → Prop) :
    Except Error First → Except Error Second → Prop
  | ok {first : First} {second : Second} (together : related first second) :
      Results related (.ok first) (.ok second)
  | error (error : Error) : Results related (.error error) (.error error)

/-- A relation that holds of the values that come out may be strengthened by what is known of
them. -/
theorem Results.strengthen {related stronger : First → Second → Prop} {first : Except Error First}
    {second : Except Error Second} (results : Results related first second)
    (known : ∀ value value', first = .ok value → second = .ok value' → related value value' →
      stronger value value') : Results stronger first second := by
  cases results with
  | ok together => exact .ok (known _ _ rfl rfl together)
  | error error => exact .error error

/-- A computation and its image. -/
theorem Results.of_map {related : First → Second → Prop} {first : Except Error First}
    {image : First → Second} (relates : ∀ value, first = .ok value → related value (image value)) :
    Results related first (first.map image) := by
  cases first with
  | ok value => exact .ok (relates value rfl)
  | error error => exact .error error

/-! ### Sequencing -/

section Sequencing

variable {Value : Type v} {Value' : Type w} {Next : Type v} {Next' : Type w}

/-- Steps in lockstep, and then the rest. -/
theorem Results.bind {related : Value → Value' → Prop} {after : Next → Next' → Prop}
    {first : Except Error Value} {second : Except Error Value'}
    {rest : Value → Except Error Next} {rest' : Value' → Except Error Next'}
    (results : Results related first second)
    (later : ∀ value value', first = .ok value → second = .ok value' → related value value' →
      Results after (rest value) (rest' value')) :
    Results after (first >>= rest) (second >>= rest') := by
  cases results with
  | ok together => exact later _ _ rfl rfl together
  | error error => exact .error error

/-- The same step on both sides. -/
theorem Results.bind_same {Next' : Type v} {after : Next → Next' → Prop}
    {first : Except Error Value} {rest : Value → Except Error Next}
    {rest' : Value → Except Error Next'}
    (later : ∀ value, first = .ok value → Results after (rest value) (rest' value)) :
    Results after (first >>= rest) (first >>= rest') := by
  cases first with
  | ok value => exact later value rfl
  | error error => exact .error error

end Sequencing

/-! ### Runs -/

section Runs

variable {State : Type v} {State' : Type w} {Action : Type x}
variable (execute : State → Action → Except Error State)
  (execute' : State' → Action → Except Error State')

/-- States that execute every action in lockstep do so along every run. -/
theorem run_related (related : State → State' → Prop)
    (lockstep : ∀ state state' action, related state state' →
      Results related (execute state action) (execute' state' action))
    {state : State} {state' : State'} (start : related state state') (actions : List Action) :
    related (Machine.run execute state actions) (Machine.run execute' state' actions) := by
  induction actions generalizing state state' with
  | nil => exact start
  | cons action actions inductionHypothesis =>
    rw [Machine.run_cons, Machine.run_cons]
    refine inductionHypothesis ?_
    have results := lockstep state state' action start
    rw [Machine.step, Machine.step]
    generalize execute state action = result, execute' state' action = result' at results
    cases results with
    | ok together => exact together
    | error _ => exact start

end Runs

end Lockstep
