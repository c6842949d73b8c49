/-
This file models the three instructions that write the configuration:
`initialize_config`, `update_config` and `set_paused`. An accepted call replaces
the configuration by one that passes `validate` and touches nothing else but
the event log.
-/

import Memecoin.World

namespace Memecoin

open Checked

/-! ### Initialisation -/

/-- The arguments of `initialize_config`. -/
structure InitializeConfigParams where
  dinoBuybackWallet : Pubkey
  treasuryWallet : Pubkey
  graduationAuthority : Pubkey
  tradeFeeBps : UInt16
  tradeSplitCreatorBps : UInt16
  tradeSplitDinoBps : UInt16
  tradeSplitTreasuryBps : UInt16
  creationFeeLamports : UInt64
  creationSplitDinoBps : UInt16
  graduationFeeLamports : UInt64
  graduationSplitDinoBps : UInt16
  graduationThresholdLamports : UInt64
  deriving DecidableEq

/-- The defaults of the source; the three wallets have to be supplied. -/
def InitializeConfigParams.default : InitializeConfigParams where
  dinoBuybackWallet := .default
  treasuryWallet := .default
  graduationAuthority := .default
  tradeFeeBps := 100
  tradeSplitCreatorBps := 3333
  tradeSplitDinoBps := 3333
  tradeSplitTreasuryBps := 3334
  creationFeeLamports := 20_000_000
  creationSplitDinoBps := 5000
  graduationFeeLamports := 1_000_000_000
  graduationSplitDinoBps := 5000
  graduationThresholdLamports := 5 * 1_000_000_000

/-- The account list of `initialize_config`. -/
structure InitializeConfig where
  admin : Pubkey
  config : Pubkey
  deriving DecidableEq

/-- The account that `initialize_config` writes. -/
def InitializeConfigParams.toConfig (params : InitializeConfigParams) (admin : Pubkey)
    (bump : UInt8) : Config where
  admin := admin
  dinoBuybackWallet := params.dinoBuybackWallet
  treasuryWallet := params.treasuryWallet
  graduationAuthority := params.graduationAuthority
  tradeFeeBps := params.tradeFeeBps
  tradeSplitCreatorBps := params.tradeSplitCreatorBps
  tradeSplitDinoBps := params.tradeSplitDinoBps
  tradeSplitTreasuryBps := params.tradeSplitTreasuryBps
  creationFeeLamports := params.creationFeeLamports
  creationSplitDinoBps := params.creationSplitDinoBps
  graduationFeeLamports := params.graduationFeeLamports
  graduationSplitDinoBps := params.graduationSplitDinoBps
  graduationThresholdLamports := params.graduationThresholdLamports
  paused := false
  bump := bump

/-- `wallet != Pubkey::default() && wallet != system_program::ID`. -/
def requireWallet (wallet : Pubkey) : Except ProgramError Unit :=
  require (wallet ≠ .default ∧ wallet ≠ systemProgramId) (.memecoin .invalidWallet)

/-- `initialize_config`, where `bump` is `ctx.bumps.config`. What the admin pays for the rent of the
new account is left out. -/
def InitializeConfig.handler (accounts : InitializeConfig) (world : World)
    (params : InitializeConfigParams) (bump : UInt8) : Except ProgramError World := do
  require (accounts.admin.canSign) .accountNotSigner
  require (accounts.config = .config) .constraintSeeds
  require (¬ world.inUse accounts.config) .accountAlreadyInUse
  requireWallet params.dinoBuybackWallet
  requireWallet params.treasuryWallet
  requireWallet params.graduationAuthority
  let config := params.toConfig accounts.admin bump
  config.validate.mapError .memecoin
  pure ({ world with config := some config }.emit (.configInitialized {
    admin := config.admin
    dinoBuybackWallet := config.dinoBuybackWallet
    treasuryWallet := config.treasuryWallet }))

/-! ### Updates -/

/-- The arguments of `update_config`: an absent one leaves its field alone. -/
structure UpdateConfigParams where
  newAdmin : Option Pubkey
  dinoBuybackWallet : Option Pubkey
  treasuryWallet : Option Pubkey
  graduationAuthority : Option Pubkey
  tradeFeeBps : Option UInt16
  tradeSplitCreatorBps : Option UInt16
  tradeSplitDinoBps : Option UInt16
  tradeSplitTreasuryBps : Option UInt16
  creationFeeLamports : Option UInt64
  creationSplitDinoBps : Option UInt16
  graduationFeeLamports : Option UInt64
  graduationSplitDinoBps : Option UInt16
  graduationThresholdLamports : Option UInt64
  deriving DecidableEq

/-- No field supplied. -/
def UpdateConfigParams.default : UpdateConfigParams :=
  ⟨none, none, none, none, none, none, none, none, none, none, none, none, none⟩

/-- The account list of the two admin instructions. -/
structure AdminAccounts where
  admin : Pubkey
  config : Pubkey
  deriving DecidableEq

/-- `has_one = admin @ Unauthorized`. -/
def AdminAccounts.validate (accounts : AdminAccounts) (world : World) :
    Except ProgramError Config := do
  require (accounts.admin.canSign) .accountNotSigner
  let config ← world.loadConfig accounts.config
  require (config.admin = accounts.admin) (.memecoin .unauthorized)
  pure config

/-- Only the supplied fields are applied. -/
def Config.update (config : Config) (params : UpdateConfigParams) : Config where
  admin := params.newAdmin.getD config.admin
  dinoBuybackWallet := params.dinoBuybackWallet.getD config.dinoBuybackWallet
  treasuryWallet := params.treasuryWallet.getD config.treasuryWallet
  graduationAuthority := params.graduationAuthority.getD config.graduationAuthority
  tradeFeeBps := params.tradeFeeBps.getD config.tradeFeeBps
  tradeSplitCreatorBps := params.tradeSplitCreatorBps.getD config.tradeSplitCreatorBps
  tradeSplitDinoBps := params.tradeSplitDinoBps.getD config.tradeSplitDinoBps
  tradeSplitTreasuryBps := params.tradeSplitTreasuryBps.getD config.tradeSplitTreasuryBps
  creationFeeLamports := params.creationFeeLamports.getD config.creationFeeLamports
  creationSplitDinoBps := params.creationSplitDinoBps.getD config.creationSplitDinoBps
  graduationFeeLamports := params.graduationFeeLamports.getD config.graduationFeeLamports
  graduationSplitDinoBps := params.graduationSplitDinoBps.getD config.graduationSplitDinoBps
  graduationThresholdLamports :=
    params.graduationThresholdLamports.getD config.graduationThresholdLamports
  paused := config.paused
  bump := config.bump

/-- A supplied wallet must not be the default key. -/
def requireSuppliedWallet (wallet : Option Pubkey) : Except ProgramError Unit :=
  require (wallet ≠ some .default) (.memecoin .invalidWallet)

/-- `update_config`: the merged configuration is validated as a whole. -/
def UpdateConfig.handler (accounts : AdminAccounts) (world : World)
    (params : UpdateConfigParams) : Except ProgramError World := do
  let config ← accounts.validate world
  requireSuppliedWallet params.dinoBuybackWallet
  requireSuppliedWallet params.treasuryWallet
  requireSuppliedWallet params.graduationAuthority
  let config := config.update params
  config.validate.mapError .memecoin
  pure ({ world with config := some config }.emit (.configUpdated { admin := accounts.admin }))

/-- `set_paused`, which logs nothing. -/
def SetPaused.handler (accounts : AdminAccounts) (world : World) (paused : Bool) :
    Except ProgramError World := do
  let config ← accounts.validate world
  pure { world with config := some { config with paused } }

/-! ### What an accepted call did -/

theorem AdminAccounts.validate_eq_ok {accounts : AdminAccounts} {world : World} {config : Config} :
    accounts.validate world = .ok config ↔
      accounts.admin.canSign ∧ accounts.config = .config ∧ world.config = some config ∧
        config.admin = accounts.admin := by
  simp only [validate, bind_eq_ok, pure_eq_ok, require_eq_ok, World.loadConfig_eq_ok, exists_const]
  constructor
  · rintro ⟨signer, _, ⟨address, present⟩, admin, rfl⟩
    exact ⟨signer, address, present, admin⟩
  · rintro ⟨signer, address, present, admin⟩
    exact ⟨signer, config, ⟨address, present⟩, admin, rfl⟩

theorem Config.Valid.setPaused {config : Config} (valid : config.Valid) (paused : Bool) :
    Config.Valid { config with paused } where
  tradeFee := valid.tradeFee
  tradeSplit := valid.tradeSplit
  creationSplit := valid.creationSplit
  graduationSplit := valid.graduationSplit
  thresholdPositive := valid.thresholdPositive
  thresholdCapped := valid.thresholdCapped
  graduationAuthority := valid.graduationAuthority

theorem InitializeConfig.handler_ok {accounts : InitializeConfig} {world world' : World}
    {params : InitializeConfigParams} {bump : UInt8}
    (accepted : handler accounts world params bump = .ok world') :
    world.config = none ∧ (params.toConfig accounts.admin bump).Valid ∧
      params.dinoBuybackWallet ≠ .default ∧ params.treasuryWallet ≠ .default ∧
      world' = { world with
        config := some (params.toConfig accounts.admin bump)
        events := world'.events } := by
  simp only [handler, requireWallet, bind_eq_ok, pure_eq_ok, require_eq_ok, mapError_eq_ok,
    Config.validate_eq_ok, exists_const] at accepted
  obtain ⟨_, address, unused, ⟨dino, _⟩, ⟨treasury, _⟩, _, valid, rfl⟩ := accepted
  refine ⟨?_, valid, dino, treasury, rfl⟩
  exact (World.not_inUse.mp unused).2.2.2 address

theorem InitializeConfig.handler_events {accounts : InitializeConfig} {world world' : World}
    {params : InitializeConfigParams} {bump : UInt8}
    (accepted : handler accounts world params bump = .ok world') :
    world'.events = world.events ++ [.configInitialized {
      admin := accounts.admin
      dinoBuybackWallet := params.dinoBuybackWallet
      treasuryWallet := params.treasuryWallet }] := by
  simp only [handler, bind_eq_ok, pure_eq_ok] at accepted
  obtain ⟨_, _, _, _, _, _, _, _, _, _, _, _, _, _, rfl⟩ := accepted
  rfl

theorem UpdateConfig.handler_eq_ok {accounts : AdminAccounts} {world world' : World}
    {params : UpdateConfigParams} :
    handler accounts world params = .ok world' ↔
      ∃ config, accounts.validate world = .ok config ∧
        params.dinoBuybackWallet ≠ some .default ∧ params.treasuryWallet ≠ some .default ∧
        params.graduationAuthority ≠ some .default ∧ (config.update params).Valid ∧
        ({ world with config := some (config.update params) } : World).emit
          (.configUpdated { admin := accounts.admin }) = world' := by
  simp only [handler, requireSuppliedWallet, bind_eq_ok, pure_eq_ok, require_eq_ok, mapError_eq_ok,
    Config.validate_eq_ok, exists_const]

theorem UpdateConfig.handler_ok {accounts : AdminAccounts} {world world' : World}
    {params : UpdateConfigParams} (accepted : handler accounts world params = .ok world') :
    ∃ config, world.config = some config ∧ config.admin = accounts.admin ∧
      (config.update params).Valid ∧ params.dinoBuybackWallet ≠ some .default ∧
      params.treasuryWallet ≠ some .default ∧
      world' = { world with config := some (config.update params), events := world'.events } := by
  obtain ⟨config, validated, dino, treasury, _, valid, rfl⟩ := handler_eq_ok.mp accepted
  obtain ⟨_, _, present, admin⟩ := AdminAccounts.validate_eq_ok.mp validated
  exact ⟨config, present, admin, valid, dino, treasury, rfl⟩

theorem UpdateConfig.handler_events {accounts : AdminAccounts} {world world' : World}
    {params : UpdateConfigParams} (accepted : handler accounts world params = .ok world') :
    world'.events = world.events ++ [.configUpdated { admin := accounts.admin }] := by
  obtain ⟨_, _, _, _, _, _, rfl⟩ := handler_eq_ok.mp accepted
  rfl

theorem SetPaused.handler_ok {accounts : AdminAccounts} {world world' : World} {paused : Bool}
    (accepted : handler accounts world paused = .ok world') :
    ∃ config, world.config = some config ∧ config.admin = accounts.admin ∧
      world' = { world with config := some { config with paused } } := by
  simp only [handler, bind_eq_ok, pure_eq_ok, AdminAccounts.validate_eq_ok] at accepted
  obtain ⟨config, ⟨_, _, present, admin⟩, rfl⟩ := accepted
  exact ⟨config, present, admin, rfl⟩

end Memecoin
