/-
This file models `graduate` and `seal_graduation`. Graduation pays its fee out
of the vault, mints the reserve to the graduation authority, forwards the rest
of the recorded SOL to it and closes the curve; sealing records the pool.
-/

import Memecoin.Curve
import Memecoin.World

namespace Memecoin

open Checked

/-! ### Graduating -/

/-- The account list of `graduate`, as far as the caller chooses it. -/
structure Graduate where
  caller : Pubkey
  config : Pubkey
  launch : Pubkey
  mint : Pubkey
  curveVault : Pubkey
  mintAuthority : Pubkey
  graduationAuthority : Pubkey
  graduationAuthorityTokenAccount : Pubkey
  dinoBuybackWallet : Pubkey
  treasuryWallet : Pubkey
  deriving DecidableEq

namespace Graduate

/-- The account constraints of `graduate`; the authority's token account is opened when it is
missing. As for a trade, what is accepted is followed, not which constraint is reported. -/
def validate (accounts : Graduate) (world : World) :
    Except ProgramError (Config × TokenLaunch × World) := do
  require (accounts.caller.canSign) .accountNotSigner
  let config ← world.loadConfig accounts.config
  let launch ← world.loadLaunch accounts.launch accounts.mint
  require ((world.mints accounts.mint).isSome) .accountNotInitialized
  require (accounts.curveVault = .vault accounts.mint) .constraintSeeds
  require (accounts.mintAuthority = .mintAuthority accounts.mint) .constraintSeeds
  require (accounts.graduationAuthority = config.graduationAuthority) (.memecoin .invalidWallet)
  let opened ← world.initAssociatedIfNeeded accounts.graduationAuthorityTokenAccount accounts.mint
    accounts.graduationAuthority
  require (accounts.dinoBuybackWallet = config.dinoBuybackWallet) (.memecoin .invalidWallet)
  require (accounts.treasuryWallet = config.treasuryWallet) (.memecoin .invalidWallet)
  pure (config, launch, opened)

/-- The account constraints of `graduate`, met, up to the authority's token account. -/
structure Met (accounts : Graduate) (world : World) (config : Config) (launch : TokenLaunch) :
    Prop where
  signer : accounts.caller.canSign
  configAddress : accounts.config = .config
  configPresent : world.config = some config
  launchAddress : accounts.launch = .launch accounts.mint
  launchPresent : world.launches (.launch accounts.mint) = some launch
  hasOne : launch.mint = accounts.mint
  mintPresent : (world.mints accounts.mint).isSome
  vaultAddress : accounts.curveVault = .vault accounts.mint
  mintAuthority : accounts.mintAuthority = .mintAuthority accounts.mint
  graduationAuthority : accounts.graduationAuthority = config.graduationAuthority
  dinoBuybackWallet : accounts.dinoBuybackWallet = config.dinoBuybackWallet
  treasuryWallet : accounts.treasuryWallet = config.treasuryWallet

theorem validate_eq_ok {accounts : Graduate} {world opened : World} {config : Config}
    {launch : TokenLaunch} :
    accounts.validate world = .ok (config, launch, opened) ↔ accounts.Met world config launch ∧
      world.initAssociatedIfNeeded accounts.graduationAuthorityTokenAccount accounts.mint
        accounts.graduationAuthority = .ok opened := by
  simp only [validate, bind_eq_ok, pure_eq_ok, require_eq_ok, World.loadConfig_eq_ok,
    World.loadLaunch_eq_ok, exists_const, Prod.mk.injEq]
  constructor
  · rintro ⟨signer, _, ⟨configAddress, config⟩, _, ⟨launchAddress, launch, hasOne⟩, mint,
      vaultAddress, mintAuthority, authority, _, opening, dino, treasury, rfl, rfl, rfl⟩
    exact ⟨⟨signer, configAddress, config, launchAddress, launch, hasOne, mint, vaultAddress,
      mintAuthority, authority, dino, treasury⟩, opening⟩
  · rintro ⟨met, opening⟩
    exact ⟨met.signer, config, ⟨met.configAddress, met.configPresent⟩, launch,
      ⟨met.launchAddress, met.launchPresent, met.hasOne⟩, met.mintPresent, met.vaultAddress,
      met.mintAuthority, met.graduationAuthority, opened, opening, met.dinoBuybackWallet,
      met.treasuryWallet, rfl, rfl, rfl⟩

/-- The guards of `graduate` and the split of its fee. -/
def feeSplit (config : Config) (launch : TokenLaunch) : Except MemecoinError TwoWaySplit := do
  require (¬ config.paused) .paused
  require (¬ launch.graduated) .alreadyGraduated
  require (launch.realSolReserves ≥ config.graduationThresholdLamports) .notReadyToGraduate
  require (launch.realSolReserves ≥ config.graduationFeeLamports) .insufficientReserves
  splitTwoWay config.graduationFeeLamports config.graduationSplitDinoBps

/-- The graduation fee payments. -/
def feePayments (accounts : Graduate) (shares : TwoWaySplit) : List (Pubkey × UInt64) :=
  [(accounts.dinoBuybackWallet, shares.dino), (accounts.treasuryWallet, shares.treasury)]

/-- The event of `graduate`. -/
def graduated (mint creator : Pubkey) (config : Config) (shares : TwoWaySplit)
    (remainingSol reserveAmount : UInt64) (timestamp : Int64) : Event :=
  .tokenGraduated {
    mint, creator
    finalSolReserves := remainingSol
    finalTokenReserves := reserveAmount
    graduationFeePaid := config.graduationFeeLamports
    dinoShare := shares.dino
    treasuryShare := shares.treasury
    graduationAuthority := config.graduationAuthority
    timestamp }

end Graduate

/-- The launch account once the curve is closed. -/
def TokenLaunch.closed (launch : TokenLaunch) (remainingSol reserveAmount : UInt64) :
    TokenLaunch :=
  { launch with
    graduated := true
    poolSeeded := false
    meteoraLbPair := .default
    graduationSolLamports := remainingSol
    graduationTokenAmount := reserveAmount
    realSolReserves := 0
    realTokenReserves := 0 }

/-- The launch account across a graduation that forwards `remaining` lamports. -/
def TokenLaunch.graduate (launch : TokenLaunch) (remaining : UInt64) : TokenLaunch :=
  launch.closed remaining graduationReserveUnits

namespace Graduate

/-- `graduate`: the vault pays the fee and forwards the rest of the recorded SOL to the authority,
which also receives the newly minted reserve. What the caller pays for the rent of a token account
that is opened is left out. -/
def handler (accounts : Graduate) (world : World) : Except ProgramError World := do
  let (config, launch, world) ← accounts.validate world
  let shares ← (feeSplit config launch).mapError .memecoin
  let world ← world.payShares accounts.curveVault (accounts.feePayments shares)
  let reserveAmount ← (TokenLaunch.toBaseUnits TokenLaunch.graduationReserve).mapError .memecoin
  let world ← world.mintTo accounts.mint accounts.graduationAuthorityTokenAccount
    accounts.mintAuthority reserveAmount
  let remainingSol := saturatingSub launch.realSolReserves config.graduationFeeLamports
  let world ← world.payShares accounts.curveVault [(accounts.graduationAuthority, remainingSol)]
  let launch := launch.closed remainingSol reserveAmount
  pure ((world.writeLaunch accounts.launch launch).emit (graduated launch.mint launch.creator config
    shares remainingSol reserveAmount world.unixTimestamp))

/-- An accepted graduation: what it read, what it computed and what it left. -/
structure Execution (accounts : Graduate) (world world' : World) where
  config : Config
  launch : TokenLaunch
  shares : TwoWaySplit
  remaining : UInt64
  mintAccount : Mint
  met : accounts.Met world config launch
  notPaused : config.paused = false
  trading : launch.graduated = false
  threshold : config.graduationThresholdLamports.toNat ≤ launch.realSolReserves.toNat
  remainingFee : remaining.toNat + config.graduationFeeLamports.toNat =
    launch.realSolReserves.toNat
  sharesTotal : shares.dino.toNat + shares.treasury.toNat = config.graduationFeeLamports.toNat
  mintPresent : world.mints accounts.mint = some mintAccount
  mints : world'.mints = Function.update world.mints accounts.mint (some { mintAccount with
    supply := mintAccount.supply + TokenLaunch.graduationReserveUnits.toNat
    minted := mintAccount.minted + TokenLaunch.graduationReserveUnits.toNat })
  lamports : ∀ holder, world'.lamports holder +
      (if holder = .vault accounts.mint then launch.realSolReserves.toNat else 0) =
    world.lamports holder + World.receipts (accounts.feePayments shares ++
      [(accounts.graduationAuthority, remaining)]) holder
  shape : ∀ address, world'.tokenAccounts.shape address =
    if address = .associatedToken config.graduationAuthority accounts.mint then
      some (accounts.mint, config.graduationAuthority) else world.tokenAccounts.shape address
  amountAt : ∀ address, world'.tokenAccounts.amountAt address =
    world.tokenAccounts.amountAt address +
      (if address = .associatedToken config.graduationAuthority accounts.mint then
        TokenLaunch.graduationReserveUnits.toNat else 0)
  held : ∀ mint owners, world'.tokenAccounts.held mint owners =
    world.tokenAccounts.held mint owners +
      (if accounts.mint = mint ∧ owners config.graduationAuthority then
        TokenLaunch.graduationReserveUnits.toNat else 0)
  launches : world'.launches = Function.update world.launches (.launch accounts.mint)
    (some (launch.graduate remaining))
  events : world'.events = world.events ++ [graduated accounts.mint launch.creator config shares
    remaining TokenLaunch.graduationReserveUnits world.unixTimestamp]
  frame : world' = { world with
    lamports := world'.lamports
    mints := world'.mints
    tokenAccounts := world'.tokenAccounts
    launches := world'.launches
    events := world'.events }

theorem feeSplit_eq_ok {config : Config} {launch : TokenLaunch} {shares : TwoWaySplit} :
    feeSplit config launch = .ok shares ↔
      config.paused = false ∧ launch.graduated = false ∧
        config.graduationThresholdLamports.toNat ≤ launch.realSolReserves.toNat ∧
        config.graduationFeeLamports.toNat ≤ launch.realSolReserves.toNat ∧
        shares.dino.toNat =
          config.graduationFeeLamports.toNat * config.graduationSplitDinoBps.toNat / 10_000 ∧
        shares.dino.toNat + shares.treasury.toNat = config.graduationFeeLamports.toNat := by
  simp only [feeSplit, bind_eq_ok, require_eq_ok, splitTwoWay_eq_ok, exists_const, ge_iff_le,
    UInt64.le_iff_toNat_le, Bool.not_eq_true]

theorem validate_failsOnly (accounts : Graduate) (world : World) :
    FailsOnly (ProgramError.ofConstraints ·) (accounts.validate world) := by
  refine failsOnly_bind (failsOnly_require rfl) fun _ => ?_
  refine failsOnly_bind (world.loadConfig_failsOnly _) fun config => ?_
  refine failsOnly_bind (world.loadLaunch_failsOnly _ _) fun launch => ?_
  refine failsOnly_bind (failsOnly_require rfl) fun _ => ?_
  refine failsOnly_bind (failsOnly_require rfl) fun _ => ?_
  refine failsOnly_bind (failsOnly_require rfl) fun _ => ?_
  refine failsOnly_bind (failsOnly_require rfl) fun _ => ?_
  refine failsOnly_bind (world.initAssociatedIfNeeded_failsOnly _ _ _) fun opened => ?_
  refine failsOnly_bind (failsOnly_require rfl) fun _ => ?_
  refine failsOnly_bind (failsOnly_require rfl) fun _ => ?_
  exact failsOnly_pure (config, launch, opened)

theorem owed_feePayments (accounts : Graduate) (shares : TwoWaySplit) :
    World.owed (accounts.feePayments shares) = shares.dino.toNat + shares.treasury.toNat := rfl

/-- What an accepted graduation did. -/
theorem execution {accounts : Graduate} {world world' : World}
    (accepted : accounts.handler world = .ok world') : Nonempty (accounts.Execution world world') := by
  simp only [handler, bind_eq_ok, pure_eq_ok, mapError_eq_ok, Prod.exists, validate_eq_ok,
    feeSplit_eq_ok, TokenLaunch.toBaseUnits_graduationReserve, Except.ok.injEq, exists_eq_left']
    at accepted
  obtain ⟨config, launch, opened, ⟨met, opening⟩, shares, ⟨notPaused, trading, threshold, covered,
    _, sharesTotal⟩, paid, first, minted, second, forwarded, third, rfl⟩ := accepted
  obtain ⟨named, openFrame, openShape, openAmount, openHeld⟩ :=
    World.initAssociatedIfNeeded_ok opening
  rw [met.graduationAuthority] at named openShape
  rw [met.vaultAddress] at first third
  rw [named] at openShape second
  rw [met.graduationAuthority] at third
  have feePayment := World.payShares_ok first
  obtain ⟨mintAccount, mintPresent, _, _, mintFrame, owner, credited⟩ := World.mintTo_ok second
  have forwarding := World.payShares_ok third
  obtain ⟨openedAccounts, rfl⟩ : ∃ tokenAccounts, opened = { world with tokenAccounts } :=
    ⟨_, openFrame⟩
  obtain ⟨lamports, rfl⟩ : ∃ lamports,
      paid = { world with lamports, tokenAccounts := openedAccounts } := ⟨_, feePayment.frame⟩
  obtain ⟨tokenAccounts, rfl⟩ : ∃ tokenAccounts, minted = { world with
      lamports
      mints := Function.update world.mints accounts.mint (some { mintAccount with
        supply := mintAccount.supply + TokenLaunch.graduationReserveUnits.toNat
        minted := mintAccount.minted + TokenLaunch.graduationReserveUnits.toNat })
      tokenAccounts } := ⟨_, mintFrame⟩
  obtain ⟨lamports', rfl⟩ : ∃ lamports', forwarded = { world with
      lamports := lamports'
      mints := Function.update world.mints accounts.mint (some { mintAccount with
        supply := mintAccount.supply + TokenLaunch.graduationReserveUnits.toNat
        minted := mintAccount.minted + TokenLaunch.graduationReserveUnits.toNat })
      tokenAccounts } := ⟨_, forwarding.frame⟩
  obtain rfl : config.graduationAuthority = owner := by
    have shape := credited.destinationShape
    rw [openShape, if_pos rfl, Option.some.injEq, Prod.mk.injEq] at shape
    exact shape.2
  have remainingFee : (saturatingSub launch.realSolReserves config.graduationFeeLamports).toNat +
      config.graduationFeeLamports.toNat = launch.realSolReserves.toNat := by
    rw [saturatingSub_toNat]
    omega
  refine ⟨{
    config, launch, shares, mintAccount, met, notPaused, trading,
    threshold, sharesTotal, mintPresent, remainingFee
    remaining := _
    mints := rfl
    lamports := fun holder => ?_
    shape := fun address => (credited.shape address).trans (openShape address)
    amountAt := fun address => (credited.amountAt address).trans (by rw [openAmount])
    held := fun other owners => (credited.held other owners).trans (by rw [openHeld])
    launches := by rw [met.launchAddress]; rfl
    events := ?_
    frame := rfl }⟩
  · have drained := feePayment.lamports_append forwarding rfl holder
    rw [World.owed_append, owed_feePayments, sharesTotal, World.owed_cons, World.owed_nil,
      Nat.add_zero, Nat.add_comm config.graduationFeeLamports.toNat, remainingFee] at drained
    rw [met.graduationAuthority]
    exact drained
  · rw [← met.hasOne]
    rfl

theorem Execution.launch_after {accounts : Graduate} {world world' : World}
    (graduated : accounts.Execution world world') :
    world'.launches (.launch accounts.mint) =
      some (graduated.launch.graduate graduated.remaining) := by
  rw [graduated.launches, Function.update_self]

end Graduate

/-! ### Sealing -/

/-- The account list of `seal_graduation`. -/
structure SealGraduation where
  graduationAuthority : Pubkey
  config : Pubkey
  launch : Pubkey
  deriving DecidableEq

/-- `seeds = [LAUNCH_SEED, launch.mint]`: the address is that of the mint the account records. -/
def SealGraduation.validate (accounts : SealGraduation) (world : World) :
    Except ProgramError (Config × TokenLaunch) := do
  require (accounts.graduationAuthority.canSign) .accountNotSigner
  let config ← world.loadConfig accounts.config
  require (accounts.graduationAuthority = config.graduationAuthority) (.memecoin .unauthorized)
  let launch ← okOr (world.launches accounts.launch) .accountNotInitialized
  require (accounts.launch = .launch launch.mint) .constraintSeeds
  pure (config, launch)

/-- The launch account once its pool is recorded. -/
def TokenLaunch.withPool (launch : TokenLaunch) (meteoraLbPair : Pubkey) : TokenLaunch :=
  { launch with poolSeeded := true, meteoraLbPair }

/-- `seal_graduation`: the authority records the pool, once. -/
def SealGraduation.handler (accounts : SealGraduation) (world : World) (meteoraLbPair : Pubkey) :
    Except ProgramError World := do
  let (config, launch) ← accounts.validate world
  require (¬ config.paused) (.memecoin .paused)
  require (launch.graduated) (.memecoin .notGraduated)
  require (¬ launch.poolSeeded) (.memecoin .poolAlreadySeeded)
  require (meteoraLbPair ≠ .default) (.memecoin .invalidPoolAddress)
  let launch := launch.withPool meteoraLbPair
  pure ((world.writeLaunch accounts.launch launch).emit (.poolSeeded {
    mint := launch.mint
    meteoraLbPair
    timestamp := world.unixTimestamp }))

/-- An accepted seal records the pool on a graduated, unseeded launch and does nothing else. -/
theorem SealGraduation.handler_ok {accounts : SealGraduation} {world world' : World}
    {meteoraLbPair : Pubkey} (accepted : accounts.handler world meteoraLbPair = .ok world') :
    ∃ launch, accounts.launch = .launch launch.mint ∧
      world.launches (.launch launch.mint) = some launch ∧ launch.graduated = true ∧
      launch.poolSeeded = false ∧ meteoraLbPair ≠ .default ∧
      world' = { world with
        launches := Function.update world.launches (.launch launch.mint)
          (some (launch.withPool meteoraLbPair))
        events := world'.events } := by
  simp only [handler, validate, bind_eq_ok, pure_eq_ok, require_eq_ok, okOr_eq_ok, Prod.exists,
    Prod.mk.injEq, World.loadConfig_eq_ok, exists_const, Bool.not_eq_true] at accepted
  obtain ⟨_, _, ⟨_, config, _, _, launch, present, address, rfl, rfl⟩, _, graduated, unseeded,
    nonzero, rfl⟩ := accepted
  rw [address] at present
  refine ⟨launch, address, present, graduated, unseeded, nonzero, ?_⟩
  rw [← address]
  rfl

theorem SealGraduation.handler_events {accounts : SealGraduation} {world world' : World}
    {meteoraLbPair mint : Pubkey} (accepted : accounts.handler world meteoraLbPair = .ok world')
    (address : accounts.launch = .launch mint) :
    world'.events = world.events ++
      [.poolSeeded { mint, meteoraLbPair, timestamp := world.unixTimestamp }] := by
  simp only [handler, validate, bind_eq_ok, pure_eq_ok, require_eq_ok, okOr_eq_ok, Prod.exists,
    Prod.mk.injEq, exists_const] at accepted
  obtain ⟨_, launch, ⟨_, _, _, _, _, _, located, rfl, rfl⟩, _, _, _, _, rfl⟩ := accepted
  obtain rfl := Pubkey.launch.inj (address.symm.trans located)
  rfl

end Memecoin
