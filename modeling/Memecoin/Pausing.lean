/-
This file is about the pause. While the program is paused, it refuses the five
instructions on launches; everything else, configuration updates included, runs
as if it were not. A pause that is lifted again therefore leaves the state in
which the same transactions without those instructions would have left it.
-/

import Memecoin.Program

namespace Memecoin

open Checked

/-! ### What a pause stops -/

namespace Action

/-- The instructions that read `config.paused`. -/
def pausable : Action → Bool
  | .createToken .. | .buy .. | .sell .. | .graduate .. | .sealGraduation .. => true
  | _ => false

/-- The instruction that writes `config.paused`. -/
def setsPaused : Action → Bool
  | .setPaused .. => true
  | _ => false

end Action

namespace World

/-- The state with the pause flag overwritten. -/
def withPaused (world : World) (paused : Bool) : World :=
  { world with config := world.config.map fun config => { config with paused } }

variable {world : World} {action : Action} {paused : Bool}

theorem withPaused_of_paused {config : Config} (configured : world.config = some config)
    (same : config.paused = paused) : world.withPaused paused = world := by
  rw [withPaused, configured, Option.map_some, ← same]
  cases world
  cases configured
  rfl

theorem loadConfig_withPaused (world : World) (paused : Bool) (address : Pubkey) :
    (world.withPaused paused).loadConfig address =
      (world.loadConfig address).map fun config => { config with paused } := by
  rw [loadConfig, loadConfig, withPaused]
  by_cases named : address = .config
  · cases world.config <;> simp [named, require, okOr, Except.map, bind, Except.bind]
  · simp [named, require, Except.map, bind, Except.bind]

theorem inUse_withPaused (world : World) (paused : Bool) (address : Pubkey) :
    (world.withPaused paused).inUse address = world.inUse address := by
  rw [inUse, inUse, withPaused, Option.isSome_map]

end World

theorem AdminAccounts.validate_withPaused (accounts : AdminAccounts) (world : World)
    (paused : Bool) : accounts.validate (world.withPaused paused) =
      (accounts.validate world).map fun config => { config with paused } := by
  rw [validate, validate, World.loadConfig_withPaused]
  by_cases signs : accounts.admin.canSign = true
  · cases world.loadConfig accounts.config with
    | error error => simp [signs, require, Except.map, bind, Except.bind]
    | ok config =>
      by_cases admin : config.admin = accounts.admin <;>
        simp [signs, admin, require, Except.map, bind, Except.bind, pure, Except.pure]
  · simp [signs, require, Except.map, bind, Except.bind]

theorem UpdateConfig.handler_withPaused (accounts : AdminAccounts) (world : World)
    (params : UpdateConfigParams) (paused : Bool) :
    handler accounts (world.withPaused paused) params =
      (handler accounts world params).map (World.withPaused · paused) := by
  rw [handler, handler, accounts.validate_withPaused]
  cases accounts.validate world with
  | error error => rfl
  | ok config =>
    have same : (Config.update { config with paused } params).validate =
      (config.update params).validate := rfl
    simp only [Except.map, bind, Except.bind, same]
    cases requireSuppliedWallet params.dinoBuybackWallet with
    | error error => rfl
    | ok _ =>
      cases requireSuppliedWallet params.treasuryWallet with
      | error error => rfl
      | ok _ =>
        cases requireSuppliedWallet params.graduationAuthority with
        | error error => rfl
        | ok _ => cases (config.update params).validate <;> rfl

namespace World

variable {world : World} {action : Action} {paused : Bool}

/-- The executor does not see the flag outside the pausable instructions. A configured program is
not initialised again. -/
theorem execute_withPaused (paused : Bool) (configured : world.config.isSome)
    (unpausable : action.pausable = false) (keepsFlag : action.setsPaused = false) :
    (world.withPaused paused).execute action =
      (world.execute action).map (World.withPaused · paused) := by
  cases action with
  | initializeConfig accounts params bump =>
    have used : world.inUse .config = true := by simp [inUse, configured]
    simp only [execute, InitializeConfig.handler, inUse_withPaused]
    by_cases signs : accounts.admin.canSign = true
    · by_cases named : accounts.config = .config
      · simp [signs, named, used, require, Except.map, bind, Except.bind]
      · simp [signs, named, require, Except.map, bind, Except.bind]
    · simp [signs, require, Except.map, bind, Except.bind]
  | updateConfig accounts params =>
    exact UpdateConfig.handler_withPaused accounts world params paused
  | transferLamports source destination amount =>
    simp only [execute, systemTransfer, map_bind]
    rfl
  | openTokenAccount address mint owner =>
    simp only [execute, openTokenAccount, inUse_withPaused, map_bind]
    rfl
  | transferTokens source destination authority amount =>
    simp only [execute, tokenTransfer, map_bind]
    rfl
  | burnTokens address authority amount =>
    simp only [execute, burn, map_bind]
    rfl
  | setClock unixTimestamp => rfl
  | setPaused => cases keepsFlag
  | createToken | buy | sell | graduate | sealGraduation => cases unpausable

/-- An accepted pausable instruction has found the program configured and not paused. -/
theorem notPaused_of_accepted {world' : World} (accepted : world.execute action = .ok world')
    (pausable : action.pausable = true) :
    ∃ config, world.config = some config ∧ config.paused = false := by
  cases action with
  | createToken accounts params bumps =>
    simp only [execute, CreateToken.handler, CreateToken.validate, bind_eq_ok, pure_eq_ok,
      require_eq_ok, Prod.exists, Prod.mk.injEq, loadConfig_eq_ok, exists_const] at accepted
    obtain ⟨_, _, ⟨_, config, ⟨_, configured⟩, rest⟩, notPaused, _⟩ := accepted
    obtain ⟨_, _, _, _, _, _, _, _, _, _, rfl, -⟩ := rest
    exact ⟨config, configured, Bool.eq_false_iff.mpr notPaused⟩
  | buy accounts tokenAmountOut maxSolIn =>
    obtain ⟨bought⟩ := Buy.execution accepted
    exact ⟨_, bought.met.configPresent, bought.notPaused⟩
  | sell accounts tokenAmountIn minSolOut =>
    obtain ⟨sold⟩ := Sell.execution accepted
    exact ⟨_, sold.met.configPresent, sold.notPaused⟩
  | graduate accounts =>
    obtain ⟨graduated⟩ := Graduate.execution accepted
    exact ⟨_, graduated.met.configPresent, graduated.notPaused⟩
  | sealGraduation accounts meteoraLbPair =>
    simp only [execute, SealGraduation.handler, SealGraduation.validate, bind_eq_ok, pure_eq_ok,
      require_eq_ok, Prod.exists, Prod.mk.injEq, loadConfig_eq_ok, exists_const] at accepted
    obtain ⟨_, _, ⟨_, config, ⟨_, configured⟩, _, _, _, _, rfl, rfl⟩, notPaused, _⟩ := accepted
    exact ⟨config, configured, Bool.eq_false_iff.mpr notPaused⟩
  | _ => cases pausable

/-- The flag of a configured program. -/
def HasFlag (world : World) (paused : Bool) : Prop :=
  ∃ config, world.config = some config ∧ config.paused = paused

/-- Only `set_paused` writes the flag. -/
theorem HasFlag.execute {world' : World} (flag : world.HasFlag paused)
    (accepted : world.execute action = .ok world') (keepsFlag : action.setsPaused = false) :
    world'.HasFlag paused := by
  have same (unchanged : world'.config = world.config) : world'.HasFlag paused := by
    rwa [HasFlag, unchanged]
  cases action with
  | initializeConfig accounts params bump =>
    obtain ⟨absent, _⟩ := InitializeConfig.handler_ok accepted
    obtain ⟨config, present, _⟩ := flag
    cases absent.symm.trans present
  | updateConfig accounts params =>
    obtain ⟨config, present, _, _, _, _, frame⟩ := UpdateConfig.handler_ok accepted
    obtain ⟨_, found, value⟩ := flag
    obtain rfl := Option.some.inj (present.symm.trans found)
    exact ⟨config.update params, by rw [frame], value⟩
  | setPaused => cases keepsFlag
  | createToken accounts params bumps =>
    obtain ⟨created⟩ := CreateToken.execution accepted
    exact same (by rw [created.frame])
  | buy accounts tokenAmountOut maxSolIn =>
    obtain ⟨bought⟩ := Buy.execution accepted
    exact same (by rw [bought.frame])
  | sell accounts tokenAmountIn minSolOut =>
    obtain ⟨sold⟩ := Sell.execution accepted
    exact same (by rw [sold.frame])
  | graduate accounts =>
    obtain ⟨graduated⟩ := Graduate.execution accepted
    exact same (by rw [graduated.frame])
  | sealGraduation accounts meteoraLbPair =>
    obtain ⟨_, _, _, _, _, _, frame⟩ := SealGraduation.handler_ok accepted
    exact same (by rw [frame])
  | transferLamports | openTokenAccount | transferTokens | burnTokens | setClock =>
    exact same (execute_outside rfl accepted).1

/-! ### A pause and its end -/

/-- The action does not write the pause flag. -/
def LeavesFlag (world : World) (action : Action) : Prop :=
  action.setsPaused = true → (world.execute action).isOk = false

instance (world : World) (action : Action) : Decidable (world.LeavesFlag action) :=
  inferInstanceAs (Decidable (_ → _))

/-- The flag does not decide who may write it. -/
theorem leavesFlag_withPaused (leaves : (world.withPaused paused).LeavesFlag action) :
    world.LeavesFlag action := by
  intro sets
  have rejected := leaves sets
  cases action with
  | setPaused accounts flag =>
    simp only [execute, SetPaused.handler, accounts.validate_withPaused] at rejected ⊢
    cases read : accounts.validate world with
    | error _ => rfl
    | ok config =>
      rw [read] at rejected
      cases (show true = false from rejected)
  | _ => cases sets

/-- A step under the pause is a step without it, unless the pause stops it. -/
theorem step_withPaused (flag : world.HasFlag false)
    (leaves : (world.withPaused true).LeavesFlag action) :
    Machine.step execute (world.withPaused true) action =
      (if !action.pausable then Machine.step execute world action else world).withPaused true := by
  obtain ⟨config, present, _⟩ := flag
  have refused (state : World) (left : state.LeavesFlag action) (sets : action.setsPaused = true) :
      Machine.step execute state action = state := by
    have rejected := left sets
    cases result : state.execute action with
    | error _ => exact Machine.step_of_error execute result
    | ok _ =>
      rw [result] at rejected
      cases rejected
  by_cases pausable : action.pausable = true
  · rw [pausable]
    show _ = world.withPaused true
    cases result : (world.withPaused true).execute action with
    | error _ => exact Machine.step_of_error execute result
    | ok _ =>
      obtain ⟨_, found, notPaused⟩ := notPaused_of_accepted result pausable
      obtain ⟨_, _, rfl⟩ := Option.map_eq_some_iff.mp found
      cases notPaused
  · rw [Bool.eq_false_iff.mpr pausable]
    show _ = (Machine.step execute world action).withPaused true
    by_cases sets : action.setsPaused = true
    · rw [refused _ leaves sets, refused _ (leavesFlag_withPaused leaves) sets]
    · have same := execute_withPaused true (Option.isSome_iff_exists.mpr ⟨config, present⟩)
        (Bool.eq_false_iff.mpr pausable) (Bool.eq_false_iff.mpr sets)
      rw [Machine.step, Machine.step, same]
      cases world.execute action <;> rfl

/-- Transactions under a pause do what those of them do without it that it does not stop; and when
the pause is lifted, nothing of it is left. -/
theorem pause_transparent {config : Config} (present : world.config = some config)
    (notPaused : config.paused = false) {pauser : AdminAccounts} {actions : List Action}
    (pauses : (world.execute (.setPaused pauser true)).isOk)
    (leaves : (world.run [.setPaused pauser true]).Along LeavesFlag actions) :
    let unpausable := actions.filter (!·.pausable)
    world.run (.setPaused pauser true :: actions) = (world.run unpausable).withPaused true ∧
    ∀ lifter : AdminAccounts,
      ((world.run (.setPaused pauser true :: actions)).execute (.setPaused lifter false)).isOk →
      world.run (.setPaused pauser true :: actions ++ [.setPaused lifter false]) =
        world.run unpausable := by
  intro unpausable
  obtain ⟨_, found, _, frame⟩ := SetPaused.handler_ok (execute_run pauses)
  obtain rfl := Option.some.inj (present.symm.trans found)
  have paused : world.run [.setPaused pauser true] = world.withPaused true := by
    rw [frame, withPaused, present]
    rfl
  rw [paused] at leaves
  obtain ⟨stopped, final, configured, unpaused⟩ := Machine.run_filter execute
    (World.withPaused · true) (!·.pausable) LeavesFlag (HasFlag · false)
    (fun _ _ _ flag left accepted => flag.execute accepted <| Bool.eq_false_iff.mpr fun sets => by
      have rejected := leavesFlag_withPaused left sets
      rw [accepted] at rejected
      cases rejected)
    (fun _ _ flag left => step_withPaused flag left) world ⟨config, present, notPaused⟩ actions
    leaves
  replace configured : (world.run unpausable).config = some final := configured
  have under : world.run (.setPaused pauser true :: actions) =
      (world.run unpausable).withPaused true := by
    rw [run_ok (execute_run pauses), paused]
    exact stopped
  refine ⟨under, fun lifter lifts => ?_⟩
  obtain ⟨before, read, _, lifted⟩ := SetPaused.handler_ok (execute_run lifts)
  rw [under, withPaused, configured] at read
  obtain rfl := Option.some.inj read
  calc world.run (.setPaused pauser true :: actions ++ [.setPaused lifter false])
      = (world.run (.setPaused pauser true :: actions)).run [.setPaused lifter false] :=
        run_append _ _ _
    _ = (world.run unpausable).withPaused false := by
        rw [lifted, under, withPaused, withPaused, configured]
        rfl
    _ = world.run unpausable := withPaused_of_paused configured unpaused

/-- A purchase is attempted and the fee is updated while the program is paused. -/
theorem pause_transparent_sample :
    let world := Sample.after Sample.params []
    let admin : AdminAccounts := { admin := Sample.admin, config := .config }
    let buy := Action.buy (Sample.trading Sample.trader) 1_000_000 1_000_000
    let update := Action.updateConfig admin
      { UpdateConfigParams.default with tradeFeeBps := some 50 }
    world.run [.setPaused admin true, buy, update, .setPaused admin false] =
      world.run [update] := by
  intro world admin buy update
  have configured : world.config.map (·.paused) = some false := by decide +kernel
  obtain ⟨config, present, notPaused⟩ := Option.map_eq_some_iff.mp configured
  have transparent := (pause_transparent present notPaused
    (show (world.execute (.setPaused admin true)).isOk from by decide +kernel)
    (show Along LeavesFlag _ [buy, update] from by decide +kernel)).2 admin
  exact transparent (by decide +kernel)

end World

end Memecoin
