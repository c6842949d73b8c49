/-
This file is about the configuration over a run. Once initialised, it stays valid
and keeps its wallets; every field holds what the last accepted call that supplied
it supplied; and only the admin of the moment writes it. An update that follows
another one therefore does what one update with the parameters of both does.
-/

import Memecoin.Program

namespace Memecoin

open Checked

/-! ### Fields -/

/-- A field of the configuration account. -/
inductive ConfigField
  | admin
  | dinoBuybackWallet
  | treasuryWallet
  | graduationAuthority
  | tradeFeeBps
  | tradeSplitCreatorBps
  | tradeSplitDinoBps
  | tradeSplitTreasuryBps
  | creationFeeLamports
  | creationSplitDinoBps
  | graduationFeeLamports
  | graduationSplitDinoBps
  | graduationThresholdLamports
  | paused
  | bump
  deriving DecidableEq

/-- The type of a field. -/
abbrev ConfigField.Value : ConfigField → Type
  | .admin | .dinoBuybackWallet | .treasuryWallet | .graduationAuthority => Pubkey
  | .tradeFeeBps | .tradeSplitCreatorBps | .tradeSplitDinoBps | .tradeSplitTreasuryBps
  | .creationSplitDinoBps | .graduationSplitDinoBps => UInt16
  | .creationFeeLamports | .graduationFeeLamports | .graduationThresholdLamports => UInt64
  | .paused => Bool
  | .bump => UInt8

/-- What a configuration has in a field. -/
def Config.get (config : Config) : (field : ConfigField) → field.Value
  | .admin => config.admin
  | .dinoBuybackWallet => config.dinoBuybackWallet
  | .treasuryWallet => config.treasuryWallet
  | .graduationAuthority => config.graduationAuthority
  | .tradeFeeBps => config.tradeFeeBps
  | .tradeSplitCreatorBps => config.tradeSplitCreatorBps
  | .tradeSplitDinoBps => config.tradeSplitDinoBps
  | .tradeSplitTreasuryBps => config.tradeSplitTreasuryBps
  | .creationFeeLamports => config.creationFeeLamports
  | .creationSplitDinoBps => config.creationSplitDinoBps
  | .graduationFeeLamports => config.graduationFeeLamports
  | .graduationSplitDinoBps => config.graduationSplitDinoBps
  | .graduationThresholdLamports => config.graduationThresholdLamports
  | .paused => config.paused
  | .bump => config.bump

namespace UpdateConfigParams

/-- What an update supplies for a field. -/
def get (params : UpdateConfigParams) : (field : ConfigField) → Option field.Value
  | .admin => params.newAdmin
  | .dinoBuybackWallet => params.dinoBuybackWallet
  | .treasuryWallet => params.treasuryWallet
  | .graduationAuthority => params.graduationAuthority
  | .tradeFeeBps => params.tradeFeeBps
  | .tradeSplitCreatorBps => params.tradeSplitCreatorBps
  | .tradeSplitDinoBps => params.tradeSplitDinoBps
  | .tradeSplitTreasuryBps => params.tradeSplitTreasuryBps
  | .creationFeeLamports => params.creationFeeLamports
  | .creationSplitDinoBps => params.creationSplitDinoBps
  | .graduationFeeLamports => params.graduationFeeLamports
  | .graduationSplitDinoBps => params.graduationSplitDinoBps
  | .graduationThresholdLamports => params.graduationThresholdLamports
  | .paused | .bump => none

/-- The parameters of two updates in one: the second update wins. -/
def merge (first second : UpdateConfigParams) : UpdateConfigParams where
  newAdmin := second.newAdmin.or first.newAdmin
  dinoBuybackWallet := second.dinoBuybackWallet.or first.dinoBuybackWallet
  treasuryWallet := second.treasuryWallet.or first.treasuryWallet
  graduationAuthority := second.graduationAuthority.or first.graduationAuthority
  tradeFeeBps := second.tradeFeeBps.or first.tradeFeeBps
  tradeSplitCreatorBps := second.tradeSplitCreatorBps.or first.tradeSplitCreatorBps
  tradeSplitDinoBps := second.tradeSplitDinoBps.or first.tradeSplitDinoBps
  tradeSplitTreasuryBps := second.tradeSplitTreasuryBps.or first.tradeSplitTreasuryBps
  creationFeeLamports := second.creationFeeLamports.or first.creationFeeLamports
  creationSplitDinoBps := second.creationSplitDinoBps.or first.creationSplitDinoBps
  graduationFeeLamports := second.graduationFeeLamports.or first.graduationFeeLamports
  graduationSplitDinoBps := second.graduationSplitDinoBps.or first.graduationSplitDinoBps
  graduationThresholdLamports :=
    second.graduationThresholdLamports.or first.graduationThresholdLamports

theorem get_merge (first second : UpdateConfigParams) (field : ConfigField) :
    (first.merge second).get field = (second.get field).or (first.get field) := by
  cases field <;> rfl

end UpdateConfigParams

namespace Config

variable {config : Config}

theorem get_ext {config' : Config} (same : ∀ field, config.get field = config'.get field) :
    config = config' := by
  obtain ⟨⟩ := config
  obtain ⟨⟩ := config'
  rw [Config.mk.injEq]
  exact ⟨same .admin, same .dinoBuybackWallet, same .treasuryWallet, same .graduationAuthority,
    same .tradeFeeBps, same .tradeSplitCreatorBps, same .tradeSplitDinoBps,
    same .tradeSplitTreasuryBps, same .creationFeeLamports, same .creationSplitDinoBps,
    same .graduationFeeLamports, same .graduationSplitDinoBps, same .graduationThresholdLamports,
    same .paused, same .bump⟩

theorem get_update (params : UpdateConfigParams) (field : ConfigField) :
    (config.update params).get field = (params.get field).getD (config.get field) := by
  cases field <;> rfl

theorem update_merge (first second : UpdateConfigParams) :
    config.update (first.merge second) = (config.update first).update second := by
  refine get_ext fun field => ?_
  rw [get_update, get_update, get_update, UpdateConfigParams.get_merge, Option.getD_or]

/-- What the instructions establish together: `validate` passes, and no wallet is the default
key. -/
structure Proper (config : Config) : Prop where
  valid : config.Valid
  dinoBuybackWallet : config.dinoBuybackWallet ≠ .default
  treasuryWallet : config.treasuryWallet ≠ .default

/-- A wallet that is supplied, or was there before. -/
theorem getD_ne_default {supplied : Option Pubkey} {wallet : Pubkey}
    (checked : supplied ≠ some .default) (earlier : wallet ≠ .default) :
    supplied.getD wallet ≠ .default := by
  cases supplied with
  | none => exact earlier
  | some latest => exact fun equal => checked (congrArg some equal)

theorem Proper.update (proper : config.Proper) {params : UpdateConfigParams}
    (valid : (config.update params).Valid) (dino : params.dinoBuybackWallet ≠ some .default)
    (treasury : params.treasuryWallet ≠ some .default) : (config.update params).Proper where
  valid := valid
  dinoBuybackWallet := getD_ne_default dino proper.dinoBuybackWallet
  treasuryWallet := getD_ne_default treasury proper.treasuryWallet

theorem Proper.setPaused (proper : config.Proper) (paused : Bool) :
    Proper { config with paused } where
  valid := proper.valid.setPaused paused
  dinoBuybackWallet := proper.dinoBuybackWallet
  treasuryWallet := proper.treasuryWallet

end Config

/-! ### Calls -/

namespace Action

/-- What a call supplies for a field of the configuration. -/
def supplied (field : ConfigField) : Action → Option field.Value
  | .updateConfig _ params => params.get field
  | .setPaused _ paused =>
    match field with
    | .paused => some paused
    | _ => none
  | _ => none

/-- The accounts of an administrative call. -/
def adminAccounts? : Action → Option AdminAccounts
  | .updateConfig accounts _ | .setPaused accounts _ => some accounts
  | _ => none

end Action

namespace World

variable {world world' : World}

/-- The account of a configuration that is there, with the value of one field. -/
def Holds (field : ConfigField) (world : World) (value : field.Value) : Prop :=
  ∃ config, world.config = some config ∧ config.get field = value

/-- The configuration after an accepted action. -/
theorem execute_config {action : Action} {config : Config} (present : world.config = some config)
    (accepted : world.execute action = .ok world') :
    ∃ config', world'.config = some config' ∧ (config.Proper → config'.Proper) ∧
      ∀ field, config'.get field = (action.supplied field).getD (config.get field) := by
  have untouched (same : world'.config = world.config)
      (silent : ∀ field, action.supplied field = none) :
      ∃ config', world'.config = some config' ∧ (config.Proper → config'.Proper) ∧
        ∀ field, config'.get field = (action.supplied field).getD (config.get field) :=
    ⟨config, same.trans present, id, fun field => by rw [silent, Option.getD_none]⟩
  cases action with
  | initializeConfig accounts params bump =>
    obtain ⟨absent, _⟩ := InitializeConfig.handler_ok accepted
    cases absent.symm.trans present
  | updateConfig accounts params =>
    obtain ⟨_, found, _, valid, dino, treasury, frame⟩ := UpdateConfig.handler_ok accepted
    obtain rfl := Option.some.inj (found.symm.trans present)
    exact ⟨_, by rw [frame], fun proper => proper.update valid dino treasury,
      Config.get_update params⟩
  | setPaused accounts paused =>
    obtain ⟨_, found, _, frame⟩ := SetPaused.handler_ok accepted
    obtain rfl := Option.some.inj (found.symm.trans present)
    exact ⟨_, by rw [frame], fun proper => proper.setPaused paused, fun field => by cases field <;> rfl⟩
  | createToken accounts params bumps =>
    obtain ⟨created⟩ := CreateToken.execution accepted
    exact untouched (by rw [created.frame]) fun _ => rfl
  | buy accounts tokenAmountOut maxSolIn =>
    obtain ⟨bought⟩ := Buy.execution accepted
    exact untouched (by rw [bought.frame]) fun _ => rfl
  | sell accounts tokenAmountIn minSolOut =>
    obtain ⟨sold⟩ := Sell.execution accepted
    exact untouched (by rw [sold.frame]) fun _ => rfl
  | graduate accounts =>
    obtain ⟨graduated⟩ := Graduate.execution accepted
    exact untouched (by rw [graduated.frame]) fun _ => rfl
  | sealGraduation accounts meteoraLbPair =>
    obtain ⟨_, _, _, _, _, _, frame⟩ := SealGraduation.handler_ok accepted
    exact untouched (by rw [frame]) fun _ => rfl
  | transferLamports | openTokenAccount | transferTokens | burnTokens | setClock =>
    exact untouched (execute_outside rfl accepted).1 fun _ => rfl

/-! ### Runs -/

/-- The last value that an accepted call of the run supplied for a field. -/
def lastSupplied (world : World) (field : ConfigField) (actions : List Action) :
    Option field.Value :=
  ((Machine.accepted execute world actions).filterMap (Action.supplied field)).getLast?

/-- The configuration after a run. -/
theorem run_config {config : Config} (present : world.config = some config)
    (actions : List Action) :
    ∃ config', (world.run actions).config = some config' ∧ (config.Proper → config'.Proper) ∧
      ∀ field, config'.get field = (world.lastSupplied field actions).getD (config.get field) := by
  obtain ⟨config', found, proper⟩ := Machine.run_invariant execute
    (fun state => ∃ config', state.config = some config' ∧ (config.Proper → config'.Proper))
    (fun _ _ _ ⟨earlier, earlierPresent, kept⟩ accepted => by
      obtain ⟨later, laterPresent, keeps, _⟩ := execute_config earlierPresent accepted
      exact ⟨later, laterPresent, fun proper => keeps (kept proper)⟩)
    world ⟨config, present, id⟩ actions
  refine ⟨config', found, proper, fun field => ?_⟩
  obtain ⟨same, samePresent, holds⟩ := Machine.run_register execute (Action.supplied field)
    (Holds field)
    (fun _ _ _ _ ⟨earlier, earlierPresent, holds⟩ accepted => by
      obtain ⟨later, laterPresent, _, written⟩ := execute_config earlierPresent accepted
      exact ⟨later, laterPresent, holds ▸ written field⟩)
    world (config.get field) ⟨config, present, rfl⟩ actions
  obtain rfl := Option.some.inj (samePresent.symm.trans found)
  exact holds

/-- An accepted administrative call is signed by the admin that the account records. -/
theorem signed_by_admin {action : Action} (accepted : world.execute action = .ok world')
    {accounts : AdminAccounts} (administrative : action.adminAccounts? = some accounts) :
    accounts.admin.canSign ∧ ∃ config, world.config = some config ∧
      config.admin = accounts.admin := by
  have admitted : ∃ config, accounts.validate world = .ok config := by
    cases action with
    | updateConfig other params =>
      obtain rfl := Option.some.inj administrative
      obtain ⟨config, validated, _⟩ := bind_eq_ok.mp accepted
      exact ⟨config, validated⟩
    | setPaused other paused =>
      obtain rfl := Option.some.inj administrative
      obtain ⟨config, validated, _⟩ := bind_eq_ok.mp accepted
      exact ⟨config, validated⟩
    | _ => cases administrative
  obtain ⟨config, validated⟩ := admitted
  obtain ⟨signer, _, present, admin⟩ := AdminAccounts.validate_eq_ok.mp validated
  exact ⟨signer, config, present, admin⟩

end World

/-! ### Two updates in one -/

namespace UpdateConfig

theorem or_ne_default {first second : Option Pubkey} (left : first ≠ some .default)
    (right : second ≠ some .default) : second.or first ≠ some .default := by
  cases second with
  | none => exact left
  | some latest => exact right

/-- The second of two accepted updates could have come with the first. -/
theorem handler_merge {accounts accounts' : AdminAccounts} {world middle last : World}
    {first second : UpdateConfigParams} (earlier : handler accounts world first = .ok middle)
    (later : handler accounts' middle second = .ok last) :
    ∃ merged, handler accounts world (first.merge second) = .ok merged ∧
      last = { merged with events := last.events } := by
  obtain ⟨config, validated, dino, treasury, authority, _, rfl⟩ := handler_eq_ok.mp earlier
  obtain ⟨between, validated', dino', treasury', authority', valid, rfl⟩ := handler_eq_ok.mp later
  obtain rfl : config.update first = between :=
    Option.some.inj (AdminAccounts.validate_eq_ok.mp validated').2.2.1
  refine ⟨_, handler_eq_ok.mpr ⟨config, validated, or_ne_default dino dino',
    or_ne_default treasury treasury', or_ne_default authority authority', ?_, rfl⟩, ?_⟩
  · rwa [Config.update_merge]
  · rw [Config.update_merge]
    rfl

/-- Under the same admin, the same accounts sign both updates. -/
theorem handler_accounts {accounts accounts' : AdminAccounts} {world middle last : World}
    {first second : UpdateConfigParams} (earlier : handler accounts world first = .ok middle)
    (later : handler accounts' middle second = .ok last)
    (same : middle.config.map Config.admin = world.config.map Config.admin) :
    accounts' = accounts := by
  obtain ⟨config, validated, _⟩ := handler_eq_ok.mp earlier
  obtain ⟨between, validated', _⟩ := handler_eq_ok.mp later
  obtain ⟨_, address, present, admin⟩ := AdminAccounts.validate_eq_ok.mp validated
  obtain ⟨_, address', present', admin'⟩ := AdminAccounts.validate_eq_ok.mp validated'
  rw [present, present', Option.map_some, Option.map_some, Option.some.injEq] at same
  rw [AdminAccounts.mk.injEq]
  exact ⟨admin'.symm.trans (same.trans admin), address'.trans address.symm⟩

end UpdateConfig

namespace World

/-- After `initialize_config`, whatever is called by whom: the configuration stays valid and keeps
its wallets, each field holds what the last accepted call that supplied it supplied, rejected calls
leave no trace, the admin of the moment signs, and consecutive updates merge. -/
theorem last_writer_wins {accounts : InitializeConfig} {world world' : World}
    {params : InitializeConfigParams} {bump : UInt8}
    (initialized : accounts.handler world params bump = .ok world') (later : List Action) :
    (∃ config, (world'.run later).config = some config ∧ config.validate = .ok () ∧
      config.dinoBuybackWallet ≠ .default ∧ config.treasuryWallet ≠ .default ∧
      config.graduationAuthority ≠ .default ∧
      ∀ field, config.get field = (world'.lastSupplied field later).getD
        ((params.toConfig accounts.admin bump).get field)) ∧
    (∀ before action after error, later = before ++ action :: after →
      (world'.run before).execute action = .error error →
        world'.run later = world'.run (before ++ after)) ∧
    (∀ before action after next accounts, later = before ++ action :: after →
      (world'.run before).execute action = .ok next → action.adminAccounts? = some accounts →
        accounts.admin.canSign ∧ ∃ config, (world'.run before).config = some config ∧
          config.admin = accounts.admin) ∧
    ∀ state middle last accounts accounts' first second,
      UpdateConfig.handler accounts state first = .ok middle →
      UpdateConfig.handler accounts' middle second = .ok last →
        (∃ merged, UpdateConfig.handler accounts state (first.merge second) = .ok merged ∧
          last = { merged with events := last.events }) ∧
        (middle.config.map Config.admin = state.config.map Config.admin →
          accounts' = accounts) := by
  obtain ⟨_, valid, dino, treasury, frame⟩ := InitializeConfig.handler_ok initialized
  have initial : world'.config = some (params.toConfig accounts.admin bump) := by rw [frame]
  have proper : (params.toConfig accounts.admin bump).Proper := ⟨valid, dino, treasury⟩
  obtain ⟨config, present, kept, written⟩ := run_config initial later
  have kept := kept proper
  refine ⟨⟨config, present, Config.validate_eq_ok.mpr kept.valid, kept.dinoBuybackWallet,
    kept.treasuryWallet, kept.valid.graduationAuthority, written⟩, ?_, ?_, ?_⟩
  · rintro before action after error rfl rejected
    rw [run_append, run_append, run_error rejected]
  · rintro before action after next accounts rfl accepted administrative
    exact signed_by_admin accepted administrative
  · intro state middle last accounts accounts' first second earlier afterwards
    exact ⟨UpdateConfig.handler_merge earlier afterwards,
      UpdateConfig.handler_accounts earlier afterwards⟩

/-- A stranger's update, an update of the trade fee and a pause. -/
theorem last_writer_wins_sample :
    let opening : Action := .initializeConfig ⟨Sample.admin, .config⟩ Sample.params 255
    let fee (signer : Pubkey) (tradeFeeBps : UInt16) : Action :=
      .updateConfig ⟨signer, .config⟩ { UpdateConfigParams.default with tradeFeeBps }
    let later := [fee Sample.admin 50, fee Sample.trader 0, .setPaused ⟨Sample.admin, .config⟩ true]
    ∃ config, ((Sample.start.run [opening]).run later).config = some config ∧
      config.tradeFeeBps = 50 ∧ config.paused = true ∧ config.admin = Sample.admin := by
  intro opening fee later
  have accepted : (Sample.start.execute opening).isOk := by decide +kernel
  have initialized : Sample.start.execute opening = .ok (Sample.start.run [opening]) :=
    execute_run accepted
  have supplied : (Sample.start.run [opening]).lastSupplied .tradeFeeBps later = some 50 ∧
      (Sample.start.run [opening]).lastSupplied .paused later = some true ∧
      (Sample.start.run [opening]).lastSupplied .admin later = none := by decide +kernel
  obtain ⟨⟨config, present, _, _, _, _, written⟩, _⟩ := last_writer_wins initialized later
  refine ⟨config, present, ?_, ?_, ?_⟩
  · exact (written .tradeFeeBps).trans (by rw [supplied.1]; rfl)
  · exact (written .paused).trans (by rw [supplied.2.1]; rfl)
  · exact (written .admin).trans (by rw [supplied.2.2]; rfl)

end World

end Memecoin
