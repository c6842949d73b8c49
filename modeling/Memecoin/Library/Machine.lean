/-
This file develops transactional machines: a state, a list of actions, and an
executor that either produces the next state or fails and is rolled back. The
results are the induction rules every development over such a machine needs.
An invariant is preserved by runs when accepted actions preserve it; a ghost
quantity, summed over the accepted actions of a run, may be related to the
state it reaches; a condition that every action of a run meets may be assumed at
each step; and a register holds what the last accepted action to write it wrote.
-/

import Mathlib.Algebra.Group.Nat.Defs
import Mathlib.Data.List.Basic

namespace Machine

universe u v w x

variable {State : Type u} {Action : Type v} {Error : Type w}
variable (execute : State → Action → Except Error State)

/-! ### Runs -/

/-- One transaction. A failed action leaves the state as it was. -/
def step (state : State) (action : Action) : State :=
  match execute state action with
  | .ok next => next
  | .error _ => state

/-- A list of transactions, in order. -/
def run (state : State) (actions : List Action) : State :=
  actions.foldl (step execute) state

theorem step_of_ok {state next : State} {action : Action}
    (accepted : execute state action = .ok next) : step execute state action = next := by
  simp only [step, accepted]

theorem step_of_error {state : State} {action : Action} {error : Error}
    (rejected : execute state action = .error error) : step execute state action = state := by
  simp only [step, rejected]

theorem run_cons (state : State) (action : Action) (actions : List Action) :
    run execute state (action :: actions) = run execute (step execute state action) actions := rfl

theorem run_append (state : State) (first second : List Action) :
    run execute state (first ++ second) = run execute (run execute state first) second :=
  List.foldl_append

/-! ### Conditions along a run -/

/-- Every action of the run meets the condition, in the state it finds. -/
def Along (condition : State → Action → Prop) : State → List Action → Prop
  | _, [] => True
  | state, action :: actions =>
    condition state action ∧ Along condition (step execute state action) actions

instance decidableAlong (condition : State → Action → Prop)
    [∀ state action, Decidable (condition state action)] :
    ∀ state actions, Decidable (Along execute condition state actions)
  | _, [] => .isTrue trivial
  | state, action :: actions =>
    have := decidableAlong condition (step execute state action) actions
    inferInstanceAs (Decidable (condition state action ∧ _))

/-- A condition on the actions alone is met along a run when every action of the list meets it. -/
theorem along_of_mem {condition : State → Action → Prop} (state : State) {actions : List Action}
    (met : ∀ action ∈ actions, ∀ state, condition state action) :
    Along execute condition state actions := by
  induction actions generalizing state with
  | nil => trivial
  | cons action actions inductionHypothesis =>
    exact ⟨met action List.mem_cons_self state,
      inductionHypothesis _ fun other member => met other (List.mem_cons_of_mem _ member)⟩

theorem along_of_ok {condition : State → Action → Prop} {state next : State} {action : Action}
    (accepted : execute state action = .ok next) (actions : List Action) :
    Along execute condition state (action :: actions) ↔
      condition state action ∧ Along execute condition next actions := by
  rw [Along, step_of_ok execute accepted]

theorem along_append {condition : State → Action → Prop} {state : State}
    {first second : List Action} : Along execute condition state (first ++ second) ↔
      Along execute condition state first ∧
        Along execute condition (run execute state first) second := by
  induction first generalizing state with
  | nil => exact (and_iff_right trivial).symm
  | cons action first inductionHypothesis =>
    rw [List.cons_append, Along, inductionHypothesis, ← and_assoc]
    rfl

theorem along_true (state : State) (actions : List Action) :
    Along execute (fun _ _ => True) state actions :=
  along_of_mem execute state fun _ _ _ => trivial

theorem along_and {first second : State → Action → Prop} {state : State} {actions : List Action}
    (left : Along execute first state actions) (right : Along execute second state actions) :
    Along execute (fun state action => first state action ∧ second state action) state actions := by
  induction actions generalizing state with
  | nil => trivial
  | cons action actions inductionHypothesis =>
    exact ⟨⟨left.1, right.1⟩, inductionHypothesis left.2 right.2⟩

/-- Conditions that agree wherever an invariant holds agree along a run. -/
theorem along_congr {first second : State → Action → Prop} (invariant : State → Prop)
    (preserved : ∀ state action next, invariant state → execute state action = .ok next →
      invariant next)
    (agree : ∀ state action, invariant state → (first state action ↔ second state action))
    (state : State) (start : invariant state) (actions : List Action) :
    Along execute first state actions ↔ Along execute second state actions := by
  induction actions generalizing state with
  | nil => exact Iff.rfl
  | cons action actions inductionHypothesis =>
    refine and_congr (agree state action start) (inductionHypothesis _ ?_)
    cases result : execute state action with
    | ok next =>
      rw [step_of_ok execute result]
      exact preserved state action next start result
    | error _ =>
      rw [step_of_error execute result]
      exact start

/-! ### Ghost quantities -/

section Tally

variable {Count : Type x} [AddMonoid Count]

/-- The sum of a weight over the accepted actions of a run. -/
def tally (weight : State → Action → State → Count) : State → List Action → Count
  | _, [] => 0
  | state, action :: actions =>
    (match execute state action with
      | .ok next => weight state action next
      | .error _ => 0) + tally weight (step execute state action) actions

theorem tally_of_ok (weight : State → Action → State → Count) {state next : State} {action : Action}
    (accepted : execute state action = .ok next) (actions : List Action) :
    tally execute weight state (action :: actions) =
      weight state action next + tally execute weight next actions := by
  rw [tally, step_of_ok execute accepted, accepted]

theorem tally_append (weight : State → Action → State → Count) (state : State)
    (first second : List Action) : tally execute weight state (first ++ second) =
      tally execute weight state first + tally execute weight (run execute state first) second := by
  induction first generalizing state with
  | nil => exact (zero_add _).symm
  | cons action first inductionHypothesis =>
    rw [List.cons_append, tally, inductionHypothesis, tally, add_assoc]
    rfl

/-- A relation between the state and a ghost quantity that every accepted action keeps, when
the action adds its weight to the quantity, holds after every run whose actions meet the
condition. The induction is on the run, with the quantity accumulated so far generalised. -/
theorem run_ghost_along (weight : State → Action → State → Count)
    (condition : State → Action → Prop) (holds : State → Count → Prop)
    (preserved : ∀ state action next count, condition state action → holds state count →
      execute state action = .ok next → holds next (count + weight state action next))
    (state : State) (count : Count) (start : holds state count) (actions : List Action)
    (along : Along execute condition state actions) :
    holds (run execute state actions) (count + tally execute weight state actions) := by
  induction actions generalizing state count with
  | nil => rwa [tally, add_zero]
  | cons action actions inductionHypothesis =>
    obtain ⟨met, rest⟩ := along
    rw [run_cons, tally, ← add_assoc]
    cases result : execute state action with
    | ok next =>
      rw [step_of_ok execute result] at rest ⊢
      exact inductionHypothesis next _ (preserved _ _ _ _ met start result) rest
    | error _ =>
      rw [step_of_error execute result] at rest ⊢
      rw [add_zero]
      exact inductionHypothesis state count start rest

end Tally

/-! ### Invariants -/

/-- An invariant that accepted actions preserve under a condition holds after every run whose
actions meet the condition. -/
theorem run_invariant_along (condition : State → Action → Prop) (invariant : State → Prop)
    (preserved : ∀ state action next, condition state action → invariant state →
      execute state action = .ok next → invariant next)
    (state : State) (start : invariant state) (actions : List Action)
    (along : Along execute condition state actions) : invariant (run execute state actions) :=
  run_ghost_along execute (fun _ _ _ => (0 : ℕ)) condition (fun state _ => invariant state)
    (fun state action next _ met => preserved state action next met) state 0 start actions along

/-- An invariant that accepted actions preserve holds after every run. -/
theorem run_invariant (invariant : State → Prop)
    (preserved : ∀ state action next, invariant state →
      execute state action = .ok next → invariant next)
    (state : State) (start : invariant state) (actions : List Action) :
    invariant (run execute state actions) :=
  run_invariant_along execute (fun _ _ => True) invariant
    (fun state action next _ => preserved state action next) state start actions
    (along_true execute state actions)

/-! ### Invisible actions -/

/-- Where one step from the image of a state leads to the image of what the visible actions lead to
from the state, so does a run. The induction is on the run. -/
theorem run_filter (image : State → State) (visible : Action → Bool)
    (condition : State → Action → Prop) (invariant : State → Prop)
    (preserved : ∀ state action next, invariant state → condition (image state) action →
      execute state action = .ok next → invariant next)
    (simulated : ∀ state action, invariant state → condition (image state) action →
      step execute (image state) action =
        image (if visible action then step execute state action else state))
    (state : State) (start : invariant state) (actions : List Action)
    (along : Along execute condition (image state) actions) :
    run execute (image state) actions = image (run execute state (actions.filter visible)) ∧
      invariant (run execute state (actions.filter visible)) := by
  induction actions generalizing state with
  | nil => exact ⟨rfl, start⟩
  | cons action actions inductionHypothesis =>
    obtain ⟨met, rest⟩ := along
    have next := simulated state action start met
    rw [next] at rest
    rw [run_cons, next, List.filter_cons]
    by_cases seen : visible action = true
    · rw [if_pos seen] at rest ⊢
      rw [if_pos seen, run_cons]
      refine inductionHypothesis _ ?_ rest
      cases result : execute state action with
      | ok next =>
        rw [step_of_ok execute result]
        exact preserved state action next start met result
      | error _ =>
        rw [step_of_error execute result]
        exact start
    · rw [if_neg seen] at rest ⊢
      rw [if_neg seen]
      exact inductionHypothesis state start rest

/-! ### Registers -/

section Register

variable {Value : Type x}

/-- The accepted actions of a run. -/
def accepted : State → List Action → List Action
  | _, [] => []
  | state, action :: actions =>
    match execute state action with
    | .ok next => action :: accepted next actions
    | .error _ => accepted state actions

theorem getLast?_filterMap_cons (write : Action → Option Value) (action : Action)
    (actions : List Action) (value : Value) :
    ((action :: actions).filterMap write).getLast?.getD value =
      (actions.filterMap write).getLast?.getD ((write action).getD value) := by
  cases written : write action with
  | none => rw [List.filterMap_cons_none written, Option.getD_none]
  | some latest =>
    rw [List.filterMap_cons_some written, List.getLast?_cons, Option.getD_some, Option.getD_some]

/-- A register that each accepted action overwrites, if it supplies a value, holds after a run the
last value that an accepted action supplied. The induction is on the run, with the value that the
register held before it generalised. -/
theorem run_register (write : Action → Option Value) (holds : State → Value → Prop)
    (written : ∀ state action next value, holds state value → execute state action = .ok next →
      holds next ((write action).getD value))
    (state : State) (value : Value) (start : holds state value) (actions : List Action) :
    holds (run execute state actions)
      (((accepted execute state actions).filterMap write).getLast?.getD value) := by
  induction actions generalizing state value with
  | nil => exact start
  | cons action actions inductionHypothesis =>
    rw [run_cons, accepted]
    cases result : execute state action with
    | ok next =>
      rw [step_of_ok execute result, getLast?_filterMap_cons]
      exact inductionHypothesis next _ (written state action next value start result)
    | error _ =>
      rw [step_of_error execute result]
      exact inductionHypothesis state value start

end Register

end Machine
