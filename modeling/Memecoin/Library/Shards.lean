/-
This file develops transactional machines whose state falls into shards. In the
state it finds, every action belongs to one key; it reads and writes the cell of
that key, and besides only moves balances that all keys share, by amounts that
the cell determines. Then the order in which actions of different keys run does
not matter: two runs that accept all their actions, and that agree for every key
on the actions of that key, end with the same cells and the same balances.
-/

import Mathlib.Algebra.BigOperators.Group.Finset.Piecewise
import Mathlib.Algebra.Ring.Int.Defs
import Mathlib.Tactic.Abel
import Memecoin.Library.Machine

namespace Shards

universe u v w x y z

variable {State : Type u} {Action : Type v} {Error : Type w} {Key : Type x} {Cell : Type y}
  {Context Holder : Type z}

/-! ### The actions of one key -/

section Selected

variable [DecidableEq Key] (execute : State → Action → Except Error State)
  (key : State → Action → Key)

/-- The actions of a run that belong to a key, each judged in the state it finds. -/
def selected (own : Key) : State → List Action → List Action
  | _, [] => []
  | state, action :: actions =>
    let later := selected own (Machine.step execute state action) actions
    if key state action = own then action :: later else later

/-- The keys of the actions of a run. -/
def keysAlong : State → List Action → List Key
  | _, [] => []
  | state, action :: actions =>
    key state action :: keysAlong (Machine.step execute state action) actions

variable {execute key}

/-- The first action of a key: none before it belongs to the key. -/
theorem selected_eq_cons {own : Key} {state : State} {actions rest : List Action} {action : Action}
    (projected : selected execute key own state actions = action :: rest) :
    ∃ before after, actions = before ++ action :: after ∧
      selected execute key own state before = [] ∧
      key (Machine.run execute state before) action = own ∧
      selected execute key own
        (Machine.step execute (Machine.run execute state before) action) after = rest := by
  induction actions generalizing state with
  | nil => cases projected
  | cons first others inductionHypothesis =>
    rw [selected] at projected
    split at projected
    · next concerned =>
      obtain ⟨rfl, rfl⟩ := List.cons.inj projected
      exact ⟨[], others, rfl, rfl, concerned, rfl⟩
    · next different =>
      obtain ⟨before, after, rfl, idle, concerned, later⟩ := inductionHypothesis projected
      refine ⟨first :: before, after, rfl, ?_, concerned, later⟩
      rw [selected, if_neg different]
      exact idle

theorem selected_of_notMem {own : Key} {state : State} {actions : List Action}
    (absent : own ∉ keysAlong execute key state actions) :
    selected execute key own state actions = [] := by
  induction actions generalizing state with
  | nil => rfl
  | cons action actions inductionHypothesis =>
    rw [keysAlong, List.mem_cons, not_or] at absent
    rw [selected, if_neg (Ne.symm absent.1)]
    exact inductionHypothesis absent.2

/-- Two runs agree for every key once they agree for the keys that they meet. -/
theorem selected_eq_of_met {state state' : State} {actions actions' : List Action}
    (met : ∀ own ∈ keysAlong execute key state actions ++ keysAlong execute key state' actions',
      selected execute key own state actions = selected execute key own state' actions')
    (own : Key) :
    selected execute key own state actions = selected execute key own state' actions' := by
  by_cases member :
      own ∈ keysAlong execute key state actions ++ keysAlong execute key state' actions'
  · exact met own member
  · rw [List.mem_append, not_or] at member
    rw [selected_of_notMem member.1, selected_of_notMem member.2]

end Selected

/-- The executor respects the shards: allowed actions keep an invariant and a context, leave the
cells of other keys alone, and do the same to their own cell and to the balances wherever they
belong to the same key and find the same cell in the same context. -/
structure Sharded (execute : State → Action → Except Error State) (allowed : Action → Prop)
    (invariant : State → Prop) (context : State → Context) (key : State → Action → Key)
    (cell : State → Key → Cell) (balance : State → Holder → ℤ) : Prop where
  preserved : ∀ state action next, invariant state → allowed action →
    execute state action = .ok next → invariant next ∧ context next = context state
  others : ∀ state action next other, invariant state → allowed action →
    execute state action = .ok next → other ≠ key state action → cell next other = cell state other
  determined : ∀ state state' action next next' own, invariant state → invariant state' →
    context state = context state' → allowed action → key state action = own →
    key state' action = own → cell state own = cell state' own →
    execute state action = .ok next → execute state' action = .ok next' →
    cell next own = cell next' own ∧ ∀ holder,
      balance next holder - balance state holder = balance next' holder - balance state' holder

namespace Sharded

variable {execute : State → Action → Except Error State} {allowed : Action → Prop}
  {invariant : State → Prop} {context : State → Context} {key : State → Action → Key}
  {cell : State → Key → Cell} {balance : State → Holder → ℤ}

/-- Every action of the run is allowed and accepted. -/
def Accepted (execute : State → Action → Except Error State) (allowed : Action → Prop)
    (state : State) (actions : List Action) : Prop :=
  Machine.Along execute (fun state action => allowed action ∧ (execute state action).isOk)
    state actions

instance (execute : State → Action → Except Error State) (allowed : Action → Prop)
    [DecidablePred allowed] (state : State) (actions : List Action) :
    Decidable (Accepted execute allowed state actions) :=
  Machine.decidableAlong execute _ state actions

theorem accepted_cons {state : State} {action : Action} {actions : List Action} :
    Accepted execute allowed state (action :: actions) ↔ allowed action ∧
      ∃ next, execute state action = .ok next ∧ Accepted execute allowed next actions := by
  cases result : execute state action with
  | error _ => simp [Accepted, Machine.Along, result, Except.isOk, Except.toBool]
  | ok next =>
    rw [Accepted, Machine.along_of_ok execute result, result, and_assoc]
    simp [Accepted, Except.isOk, Except.toBool]

theorem run_of_ok {state next : State} {action : Action} (result : execute state action = .ok next)
    (actions : List Action) :
    Machine.run execute state (action :: actions) = Machine.run execute next actions := by
  rw [Machine.run_cons, Machine.step_of_ok execute result]

/-- Allowed runs keep the invariant and the context. -/
theorem run_preserved (sharded : Sharded execute allowed invariant context key cell balance)
    {state : State} (start : invariant state) {actions : List Action}
    (accepted : Accepted execute allowed state actions) :
    invariant (Machine.run execute state actions) ∧
      context (Machine.run execute state actions) = context state := by
  induction actions generalizing state with
  | nil => exact ⟨start, rfl⟩
  | cons action actions inductionHypothesis =>
    obtain ⟨permitted, next, result, later⟩ := accepted_cons.mp accepted
    obtain ⟨kept, same⟩ := sharded.preserved _ _ _ start permitted result
    obtain ⟨invariant', context'⟩ := inductionHypothesis kept later
    rw [run_of_ok result]
    exact ⟨invariant', context'.trans same⟩

/-! ### One key -/

variable [DecidableEq Key]

theorem selected_of_ok {state next : State} {action : Action}
    (result : execute state action = .ok next) (own : Key) (actions : List Action) :
    selected execute key own state (action :: actions) =
      if key state action = own then action :: selected execute key own next actions
      else selected execute key own next actions := by
  rw [selected, Machine.step_of_ok execute result]

/-- What the actions of one key do to the balance of a holder. -/
def contribution (execute : State → Action → Except Error State) (key : State → Action → Key)
    (balance : State → Holder → ℤ) (own : Key) (holder : Holder) (state : State)
    (actions : List Action) : ℤ :=
  Machine.tally execute (fun state action next =>
    if key state action = own then balance next holder - balance state holder else 0) state actions

/-- A run without actions of a key leaves its cell alone and contributes nothing for it. -/
theorem run_idle (sharded : Sharded execute allowed invariant context key cell balance)
    {state : State} (start : invariant state) {actions : List Action} {own : Key}
    (accepted : Accepted execute allowed state actions)
    (idle : selected execute key own state actions = []) :
    cell (Machine.run execute state actions) own = cell state own ∧
      ∀ holder, contribution execute key balance own holder state actions = 0 := by
  induction actions generalizing state with
  | nil => exact ⟨rfl, fun _ => rfl⟩
  | cons action actions inductionHypothesis =>
    obtain ⟨permitted, next, result, later⟩ := accepted_cons.mp accepted
    rw [selected_of_ok result] at idle
    split at idle
    · cases idle
    · next different =>
      obtain ⟨same, nothing⟩ := inductionHypothesis
        (sharded.preserved _ _ _ start permitted result).1 later idle
      refine ⟨?_, fun holder => ?_⟩
      · rw [run_of_ok result, same]
        exact sharded.others _ _ _ own start permitted result (Ne.symm different)
      · rw [contribution, Machine.tally_of_ok execute _ result, if_neg different, zero_add]
        exact nothing holder

/-- One key across two runs: where the runs start with the same cell and have the same actions of
the key, they end with the same cell, and the key contributes the same. The induction is on the
first run; the actions of other keys before the next action of this one are passed over. -/
theorem run_determined (sharded : Sharded execute allowed invariant context key cell balance)
    {state state' : State} (start : invariant state) (start' : invariant state')
    (together : context state = context state') {own : Key}
    (same : cell state own = cell state' own) {actions actions' : List Action}
    (accepted : Accepted execute allowed state actions)
    (accepted' : Accepted execute allowed state' actions')
    (projected : selected execute key own state actions =
      selected execute key own state' actions') :
    cell (Machine.run execute state actions) own = cell (Machine.run execute state' actions') own ∧
      ∀ holder, contribution execute key balance own holder state actions =
        contribution execute key balance own holder state' actions' := by
  induction actions generalizing state state' actions' with
  | nil =>
    obtain ⟨unchanged, nothing⟩ := sharded.run_idle start' accepted' projected.symm
    exact ⟨same.trans unchanged.symm, fun holder => (nothing holder).symm⟩
  | cons action actions inductionHypothesis =>
    obtain ⟨permitted, next, result, later⟩ := accepted_cons.mp accepted
    obtain ⟨kept, context'⟩ := sharded.preserved _ _ _ start permitted result
    rw [selected_of_ok result] at projected
    by_cases concerned : key state action = own
    · rw [if_pos concerned] at projected
      obtain ⟨before, after, rfl, idle, concerned', rest⟩ := selected_eq_cons projected.symm
      obtain ⟨first, second⟩ := (Machine.along_append execute).mp accepted'
      obtain ⟨_, next', result', later'⟩ := accepted_cons.mp second
      obtain ⟨unchanged, nothing⟩ := sharded.run_idle start' first idle
      obtain ⟨between, contextBetween⟩ := sharded.run_preserved start' first
      obtain ⟨cells, changes⟩ := sharded.determined _ _ _ _ _ own start between
        (together.trans contextBetween.symm) permitted concerned concerned'
        (same.trans unchanged.symm) result result'
      obtain ⟨kept', contextAfter⟩ := sharded.preserved _ _ _ between permitted result'
      rw [Machine.step_of_ok execute result'] at rest
      obtain ⟨final, contributions⟩ := inductionHypothesis kept kept'
        (context'.trans (together.trans (contextAfter.trans contextBetween).symm)) cells later
        later' rest.symm
      refine ⟨?_, fun holder => ?_⟩
      · rw [run_of_ok result, Machine.run_append, run_of_ok result', final]
      · have rest' := contributions holder
        rw [contribution] at rest'
        rw [contribution, contribution, Machine.tally_append, Machine.tally_of_ok execute _ result,
          Machine.tally_of_ok execute _ result', if_pos concerned, if_pos concerned',
          changes holder, rest']
        have nothing' := nothing holder
        rw [contribution] at nothing' ⊢
        rw [nothing', zero_add]
    · rw [if_neg concerned] at projected
      have passed := sharded.others _ _ _ own start permitted result (Ne.symm concerned)
      obtain ⟨final, contributions⟩ := inductionHypothesis kept start' (context'.trans together)
        (passed.trans same) later accepted' projected
      refine ⟨by rw [run_of_ok result, final], fun holder => ?_⟩
      rw [contribution, Machine.tally_of_ok execute _ result, if_neg concerned, zero_add]
      exact contributions holder

/-! ### All keys -/

/-- A balance changes by what the keys contribute. -/
theorem balance_eq_sum (balance : State → Holder → ℤ) {state : State} {actions : List Action}
    (accepted : Accepted execute allowed state actions) {keys : Finset Key}
    (complete : ∀ own ∈ keysAlong execute key state actions, own ∈ keys) (holder : Holder) :
    balance (Machine.run execute state actions) holder = balance state holder +
      ∑ own ∈ keys, contribution execute key balance own holder state actions := by
  induction actions generalizing state with
  | nil => simp [contribution, Machine.tally, Machine.run]
  | cons action actions inductionHypothesis =>
    obtain ⟨_, next, result, later⟩ := accepted_cons.mp accepted
    rw [keysAlong, Machine.step_of_ok execute result] at complete
    have member := complete _ List.mem_cons_self
    have rest := inductionHypothesis later
      fun own later => complete own (List.mem_cons_of_mem _ later)
    simp only [contribution, Machine.tally_of_ok execute _ result, Finset.sum_add_distrib] at rest ⊢
    rw [Finset.sum_ite_eq, if_pos member, run_of_ok result, rest]
    abel

/-- Runs from one state that accept all their actions, and agree for every key on the actions of
that key, end with the same cells and the same balances. -/
theorem interleaving (sharded : Sharded execute allowed invariant context key cell balance)
    {state : State} (start : invariant state) {actions actions' : List Action}
    (accepted : Accepted execute allowed state actions)
    (accepted' : Accepted execute allowed state actions')
    (projected : ∀ own, selected execute key own state actions =
      selected execute key own state actions') :
    (∀ own, cell (Machine.run execute state actions) own =
      cell (Machine.run execute state actions') own) ∧
    ∀ holder, balance (Machine.run execute state actions) holder =
      balance (Machine.run execute state actions') holder := by
  have agree (own : Key) := sharded.run_determined start start rfl rfl accepted accepted'
    (projected own)
  refine ⟨fun own => (agree own).1, fun holder => ?_⟩
  -- both balances are sums over the keys that either run meets
  let keys := (keysAlong execute key state actions ++ keysAlong execute key state actions').toFinset
  have first : ∀ own ∈ keysAlong execute key state actions, own ∈ keys :=
    fun own member => List.mem_toFinset.mpr (List.mem_append_left _ member)
  have second : ∀ own ∈ keysAlong execute key state actions', own ∈ keys :=
    fun own member => List.mem_toFinset.mpr (List.mem_append_right _ member)
  rw [balance_eq_sum balance accepted first, balance_eq_sum balance accepted' second]
  exact congrArg (balance state holder + ·)
    (Finset.sum_congr rfl fun own _ => (agree own).2 holder)

end Sharded

end Shards
