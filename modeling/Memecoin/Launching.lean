/-
This file models `create_token`: the accounts it initialises, the creation fee
it splits, the curve allocation it mints to the launch PDA's associated token
account, and the launch account it writes. An accepted call finds no account of
the mint anywhere, and leaves exactly one, holding the whole allocation.
-/

import Memecoin.Curve
import Memecoin.World

namespace Memecoin

open Checked

/-! ### The instruction -/

/-- The texts of a new token. -/
structure CreateTokenParams where
  name : String
  symbol : String
  uri : String
  deriving DecidableEq

/-- The account list of `create_token`, as far as the caller chooses it. -/
structure CreateToken where
  creator : Pubkey
  config : Pubkey
  dinoBuybackWallet : Pubkey
  treasuryWallet : Pubkey
  mint : Pubkey
  mintAuthority : Pubkey
  launch : Pubkey
  curveVault : Pubkey
  curveTokenAccount : Pubkey
  deriving DecidableEq

/-- `ctx.bumps`: the bumps that `find_program_address` returned. -/
structure CreateTokenBumps where
  launch : UInt8
  curveVault : UInt8
  mintAuthority : UInt8
  deriving DecidableEq

namespace CreateToken

/-- The account constraints of `create_token`. The mint is a fresh keypair account and signs its own
creation; the mint, the launch and the curve token account are initialised on the way. As for a
trade, what is accepted is followed, not which constraint is reported. -/
def validate (accounts : CreateToken) (world : World) : Except ProgramError (Config × World) := do
  require (accounts.creator.canSign) .accountNotSigner
  let config ← world.loadConfig accounts.config
  require (accounts.dinoBuybackWallet = config.dinoBuybackWallet) (.memecoin .invalidWallet)
  require (accounts.treasuryWallet = config.treasuryWallet) (.memecoin .invalidWallet)
  require (accounts.mint.canSign) .accountNotSigner
  require (¬ world.inUse accounts.mint) .accountAlreadyInUse
  require (accounts.mintAuthority = .mintAuthority accounts.mint) .constraintSeeds
  require (accounts.launch = .launch accounts.mint) .constraintSeeds
  require (¬ world.inUse accounts.launch) .accountAlreadyInUse
  require (accounts.curveVault = .vault accounts.mint) .constraintSeeds
  require (accounts.curveTokenAccount = .associatedToken accounts.launch accounts.mint)
    .constraintAssociated
  require (¬ world.inUse accounts.curveTokenAccount) .accountAlreadyInUse
  pure (config, (world.initMint accounts.mint accounts.mintAuthority).initTokenAccount
    accounts.curveTokenAccount accounts.mint accounts.launch)

/-- The creation fee payments. -/
def feePayments (accounts : CreateToken) (shares : TwoWaySplit) : List (Pubkey × UInt64) :=
  [(accounts.dinoBuybackWallet, shares.dino), (accounts.treasuryWallet, shares.treasury)]

/-- The launch account that `create_token` writes. -/
def newLaunch (accounts : CreateToken) (bumps : CreateTokenBumps) (createdAt : Int64)
    (mintAmount virtualTokens : UInt64) : TokenLaunch where
  mint := accounts.mint
  creator := accounts.creator
  createdAt := createdAt
  realSolReserves := 0
  realTokenReserves := mintAmount
  virtualSolReserves := TokenLaunch.defaultVirtualSol
  virtualTokenReserves := virtualTokens
  tokensSold := 0
  graduated := false
  poolSeeded := false
  meteoraLbPair := .default
  graduationSolLamports := 0
  graduationTokenAmount := 0
  bump := bumps.launch
  vaultBump := bumps.curveVault
  mintAuthorityBump := bumps.mintAuthority

/-- The event of `create_token`. -/
def created (accounts : CreateToken) (params : CreateTokenParams) (creationFeePaid : UInt64)
    (shares : TwoWaySplit) (createdAt : Int64) : Event :=
  .tokenCreated {
    mint := accounts.mint
    creator := accounts.creator
    name := params.name
    symbol := params.symbol
    uri := params.uri
    creationFeePaid
    dinoShare := shares.dino
    treasuryShare := shares.treasury
    timestamp := createdAt }

/-- `create_token`: the creator pays the fee, and the curve account receives the allocation. What the
creator pays besides for the rent of the new accounts is left out. -/
def handler (accounts : CreateToken) (world : World) (params : CreateTokenParams)
    (bumps : CreateTokenBumps) : Except ProgramError World := do
  let (config, world) ← accounts.validate world
  require (¬ config.paused) (.memecoin .paused)
  require (params.name.utf8ByteSize ≤ 32) (.memecoin .nameTooLong)
  require (params.symbol.utf8ByteSize ≤ 10) (.memecoin .symbolTooLong)
  require (params.uri.utf8ByteSize ≤ 200) (.memecoin .uriTooLong)
  let shares ← (splitTwoWay config.creationFeeLamports config.creationSplitDinoBps).mapError
    .memecoin
  let world ← world.payShares accounts.creator (accounts.feePayments shares)
  let mintAmount ← (TokenLaunch.toBaseUnits TokenLaunch.curveAllocation).mapError .memecoin
  let world ← world.mintTo accounts.mint accounts.curveTokenAccount accounts.mintAuthority
    mintAmount
  let virtualTokens ← (TokenLaunch.toBaseUnits TokenLaunch.defaultVirtualTokens).mapError
    .memecoin
  let launch := accounts.newLaunch bumps world.unixTimestamp mintAmount virtualTokens
  pure ((world.writeLaunch accounts.launch launch).emit (accounts.created params
    config.creationFeeLamports shares launch.createdAt))

/-! ### What an accepted call did -/

/-- An accepted creation: what it read, what it computed and what it left. -/
structure Execution (accounts : CreateToken) (world : World) (bumps : CreateTokenBumps)
    (world' : World) where
  config : Config
  shares : TwoWaySplit
  launch' : TokenLaunch
  configPresent : world.config = some config
  dinoBuybackWallet : accounts.dinoBuybackWallet = config.dinoBuybackWallet
  treasuryWallet : accounts.treasuryWallet = config.treasuryWallet
  signer : accounts.creator.canSign
  mintSigner : accounts.mint.canSign
  mintFresh : world.mints accounts.mint = none
  launchFresh : world.launches (.launch accounts.mint) = none
  created : launch' = accounts.newLaunch bumps world.unixTimestamp
    TokenLaunch.curveAllocationUnits TokenLaunch.virtualTokenUnits
  sharesTotal : shares.dino.toNat + shares.treasury.toNat = config.creationFeeLamports.toNat
  lamports : ∀ holder, world'.lamports holder +
      (if holder = accounts.creator then World.owed (accounts.feePayments shares) else 0) =
    world.lamports holder + World.receipts (accounts.feePayments shares) holder
  shape : ∀ address, world'.tokenAccounts.shape address =
    if address = .associatedToken (.launch accounts.mint) accounts.mint then
      some (accounts.mint, .launch accounts.mint) else world.tokenAccounts.shape address
  amountAt : ∀ address, world'.tokenAccounts.amountAt address =
    world.tokenAccounts.amountAt address +
      (if address = .associatedToken (.launch accounts.mint) accounts.mint then
        TokenLaunch.curveAllocationUnits.toNat else 0)
  held : ∀ mint owners, world'.tokenAccounts.held mint owners =
    world.tokenAccounts.held mint owners +
      (if accounts.mint = mint ∧ owners (.launch accounts.mint) then
        TokenLaunch.curveAllocationUnits.toNat else 0)
  mints : world'.mints = Function.update world.mints accounts.mint
    (some ⟨.mintAuthority accounts.mint, TokenLaunch.curveAllocationUnits.toNat,
      TokenLaunch.curveAllocationUnits.toNat⟩)
  launches : world'.launches =
    Function.update world.launches (.launch accounts.mint) (some launch')
  frame : world' = { world with
    lamports := world'.lamports
    mints := world'.mints
    tokenAccounts := world'.tokenAccounts
    launches := world'.launches
    events := world'.events }

theorem execution {accounts : CreateToken} {world world' : World} {params : CreateTokenParams}
    {bumps : CreateTokenBumps} (accepted : accounts.handler world params bumps = .ok world') :
    Nonempty (accounts.Execution world bumps world') := by
  obtain ⟨creator, configAddress, dinoWallet, treasuryWallet, mint, authority, launch, vault,
    curve⟩ := accounts
  simp only [handler, validate, bind_eq_ok, pure_eq_ok, mapError_eq_ok, require_eq_ok, Prod.exists,
    Prod.mk.injEq, World.loadConfig_eq_ok, World.not_inUse, splitTwoWay_eq_ok,
    TokenLaunch.toBaseUnits_curveAllocation, TokenLaunch.toBaseUnits_defaultVirtualTokens,
    Except.ok.injEq, exists_const, exists_eq_left'] at accepted
  obtain ⟨_, opened, ⟨signer, config, ⟨_, configPresent⟩, rfl, rfl, mintSigner,
    ⟨mintFresh, _⟩, rfl, rfl, ⟨_, _, launchFresh, _⟩, _, rfl, ⟨_, curveFresh, _⟩, rfl, rfl⟩,
    _, _, _, _, shares, ⟨_, sharesTotal⟩, paid, first, minted, second, rfl⟩ := accepted
  have payment := World.payShares_ok first
  obtain ⟨lamports, rfl⟩ : ∃ lamports, paid = { (world.initMint mint
      (.mintAuthority mint)).initTokenAccount (.associatedToken (.launch mint) mint) mint
      (.launch mint) with lamports } := ⟨_, payment.frame⟩
  obtain ⟨account, present, _, _, frame, owner, credited⟩ := World.mintTo_ok second
  obtain rfl : ⟨.mintAuthority mint, 0, 0⟩ = account := by
    simpa only [World.initTokenAccount, World.initMint, Function.update_self,
      Option.some.injEq] using present
  have credited : TokenAccounts.Credited (world.tokenAccounts.set
      (.associatedToken (.launch mint) mint) ⟨mint, .launch mint, 0⟩)
      (.associatedToken (.launch mint) mint) TokenLaunch.curveAllocationUnits.toNat mint owner
      minted.tokenAccounts := credited
  obtain rfl : .launch mint = owner := by
    have shape := credited.destinationShape
    rw [TokenAccounts.shape_set, if_pos rfl, Option.some.injEq, Prod.mk.injEq] at shape
    exact shape.2
  obtain ⟨tokenAccounts, rfl⟩ : ∃ tokenAccounts, minted = { world with
      lamports
      mints := Function.update world.mints mint (some ⟨.mintAuthority mint,
        TokenLaunch.curveAllocationUnits.toNat, TokenLaunch.curveAllocationUnits.toNat⟩)
      tokenAccounts } := by
    refine ⟨minted.tokenAccounts, frame.trans ?_⟩
    simp only [World.initTokenAccount, World.initMint, Function.update_idem, Nat.zero_add]
  exact ⟨{
    config, shares, configPresent, signer, mintSigner, mintFresh, launchFresh, sharesTotal
    launch' := _
    created := rfl
    dinoBuybackWallet := rfl
    treasuryWallet := rfl
    lamports := payment.lamports
    shape := fun address =>
      (credited.shape address).trans (TokenAccounts.shape_set _ _ _ _)
    amountAt := fun address => (credited.amountAt address).trans
      (congrArg (· + _) (TokenAccounts.amountAt_open curveFresh _ _ _))
    held := fun other owners => (credited.held other owners).trans
      (congrArg (· + _) (TokenAccounts.held_open curveFresh _ _ _ _))
    mints := rfl
    launches := rfl
    frame := rfl }⟩

theorem Execution.launch_after {accounts : CreateToken} {world world' : World}
    {bumps : CreateTokenBumps} (created : accounts.Execution world bumps world') :
    world'.launches (.launch accounts.mint) = some created.launch' := by
  rw [created.launches, Function.update_self]

theorem handler_events {accounts : CreateToken} {world world' : World} {params : CreateTokenParams}
    {bumps : CreateTokenBumps} (accepted : accounts.handler world params bumps = .ok world') :
    ∃ (creationFeePaid : UInt64) (shares : TwoWaySplit),
      shares.dino.toNat + shares.treasury.toNat = creationFeePaid.toNat ∧
      world'.events = world.events ++
        [accounts.created params creationFeePaid shares world.unixTimestamp] := by
  simp only [handler, validate, bind_eq_ok, pure_eq_ok, mapError_eq_ok, require_eq_ok, Prod.exists,
    Prod.mk.injEq, splitTwoWay_eq_ok, exists_const] at accepted
  obtain ⟨_, _, ⟨_, _, _, _, _, _, _, _, _, _, _, _, _, rfl, rfl⟩, _, _, _, _, shares,
    ⟨_, total⟩, paid, first, _, _, minted, second, _, _, rfl⟩ := accepted
  obtain ⟨_, _, _, _, frame, _⟩ := World.mintTo_ok second
  rw [(World.payShares_ok first).frame] at frame
  rw [frame]
  exact ⟨_, shares, total, rfl⟩

end CreateToken

end Memecoin
