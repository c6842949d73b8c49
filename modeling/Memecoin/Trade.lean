/-
This file models `buy` and `sell`. Each handler is the source's sequence of
steps: the quote with its fee and slippage check, the SOL transfers, the token
transfer and the update of the launch account. Each is followed by the complete
description of what an accepted call did: to the launch, to every lamport
balance, to the token accounts and to the event log.
-/

import Memecoin.Curve
import Memecoin.World

namespace Memecoin

open Checked ConstantProduct

/-! ### Accounts -/

/-- The account list that `Buy` and `Sell` share: `trader` is the `buyer` of the one and the
`seller` of the other, and signs. -/
structure TradeAccounts where
  trader : Pubkey
  config : Pubkey
  launch : Pubkey
  mint : Pubkey
  curveVault : Pubkey
  curveTokenAccount : Pubkey
  traderTokenAccount : Pubkey
  creatorWallet : Pubkey
  dinoBuybackWallet : Pubkey
  treasuryWallet : Pubkey
  deriving DecidableEq

namespace TradeAccounts

/-- The account constraints of `buy` and `sell`, account by account. Anchor loads all accounts
before it checks seeds and addresses: what is accepted is the same, which constraint is reported
may not be. -/
def validate (accounts : TradeAccounts) (world : World) :
    Except ProgramError (Config × TokenLaunch) := do
  require (accounts.trader.canSign) .accountNotSigner
  let config ← world.loadConfig accounts.config
  let launch ← world.loadLaunch accounts.launch accounts.mint
  require ((world.mints accounts.mint).isSome) .accountNotInitialized
  require (accounts.curveVault = .vault accounts.mint) .constraintSeeds
  world.checkTokenAccount accounts.curveTokenAccount accounts.mint accounts.launch
  world.checkTokenAccount accounts.traderTokenAccount accounts.mint accounts.trader
  require (accounts.creatorWallet = launch.creator) (.memecoin .invalidWallet)
  require (accounts.dinoBuybackWallet = config.dinoBuybackWallet) (.memecoin .invalidWallet)
  require (accounts.treasuryWallet = config.treasuryWallet) (.memecoin .invalidWallet)
  pure (config, launch)

/-- The account constraints of a trade, met. -/
structure Met (accounts : TradeAccounts) (world : World) (config : Config)
    (launch : TokenLaunch) : Prop where
  signer : accounts.trader.canSign
  configAddress : accounts.config = .config
  configPresent : world.config = some config
  launchAddress : accounts.launch = .launch accounts.mint
  launchPresent : world.launches (.launch accounts.mint) = some launch
  hasOne : launch.mint = accounts.mint
  mintPresent : (world.mints accounts.mint).isSome
  vaultAddress : accounts.curveVault = .vault accounts.mint
  curveTokenAccount : world.tokenAccounts.shape accounts.curveTokenAccount =
    some (accounts.mint, .launch accounts.mint)
  traderTokenAccount : world.tokenAccounts.shape accounts.traderTokenAccount =
    some (accounts.mint, accounts.trader)
  creatorWallet : accounts.creatorWallet = launch.creator
  dinoBuybackWallet : accounts.dinoBuybackWallet = config.dinoBuybackWallet
  treasuryWallet : accounts.treasuryWallet = config.treasuryWallet

theorem validate_eq_ok {accounts : TradeAccounts} {world : World} {config : Config}
    {launch : TokenLaunch} :
    accounts.validate world = .ok (config, launch) ↔ accounts.Met world config launch := by
  simp only [validate, bind_eq_ok, pure_eq_ok, require_eq_ok, World.loadConfig_eq_ok,
    World.loadLaunch_eq_ok, World.checkTokenAccount_eq_ok, exists_const, Prod.mk.injEq]
  constructor
  · rintro ⟨signer, _, ⟨configAddress, config⟩, _, ⟨launchAddress, launch, hasOne⟩, mint,
      vaultAddress, curve, trader, creator, dino, treasury, rfl, rfl⟩
    exact ⟨signer, configAddress, config, launchAddress, launch, hasOne, mint, vaultAddress,
      launchAddress ▸ curve, trader, creator, dino, treasury⟩
  · intro met
    exact ⟨met.signer, config, ⟨met.configAddress, met.configPresent⟩, launch,
      ⟨met.launchAddress, met.launchPresent, met.hasOne⟩, met.mintPresent, met.vaultAddress,
      met.launchAddress ▸ met.curveTokenAccount, met.traderTokenAccount, met.creatorWallet,
      met.dinoBuybackWallet, met.treasuryWallet, rfl, rfl⟩

theorem validate_failsOnly (accounts : TradeAccounts) (world : World) :
    FailsOnly (ProgramError.ofConstraints ·) (accounts.validate world) := by
  refine failsOnly_bind (failsOnly_require rfl) fun _ => ?_
  refine failsOnly_bind (world.loadConfig_failsOnly _) fun config => ?_
  refine failsOnly_bind (world.loadLaunch_failsOnly _ _) fun launch => ?_
  refine failsOnly_bind (failsOnly_require rfl) fun _ => ?_
  refine failsOnly_bind (failsOnly_require rfl) fun _ => ?_
  refine failsOnly_bind (world.checkTokenAccount_failsOnly _ _ _) fun _ => ?_
  refine failsOnly_bind (world.checkTokenAccount_failsOnly _ _ _) fun _ => ?_
  refine failsOnly_bind (failsOnly_require rfl) fun _ => ?_
  refine failsOnly_bind (failsOnly_require rfl) fun _ => ?_
  refine failsOnly_bind (failsOnly_require rfl) fun _ => ?_
  exact failsOnly_pure (config, launch)

/-- The three wallets a trade fee is split between, with their shares. -/
def feePayments (accounts : TradeAccounts) (shares : ThreeWaySplit) : List (Pubkey × UInt64) :=
  [(accounts.creatorWallet, shares.creator), (accounts.dinoBuybackWallet, shares.dino),
    (accounts.treasuryWallet, shares.treasury)]

theorem owed_feePayments (accounts : TradeAccounts) (shares : ThreeWaySplit) :
    World.owed (accounts.feePayments shares) =
      shares.creator.toNat + shares.dino.toNat + shares.treasury.toNat :=
  (Nat.add_assoc _ _ _).symm

theorem receipts_outsider (accounts : TradeAccounts) {shares : ThreeWaySplit} {holder : Pubkey}
    (creator : holder ≠ accounts.creatorWallet) (dino : holder ≠ accounts.dinoBuybackWallet)
    (treasury : holder ≠ accounts.treasuryWallet) :
    World.receipts (accounts.feePayments shares) holder = 0 := by
  refine World.receipts_eq_zero fun payment member => ?_
  simp only [feePayments, List.mem_cons, List.not_mem_nil, or_false] at member
  rcases member with rfl | rfl | rfl
  · exact creator
  · exact dino
  · exact treasury

end TradeAccounts

/-! ### The launch account across a trade -/

namespace TokenLaunch

/-- A buy of `tokens` for `cost`, as the launch account records it. -/
structure Bought (launch : TokenLaunch) (tokens cost : ℕ) (launch' : TokenLaunch) : Prop where
  trading : launch.graduated = false
  positive : 0 < tokens
  available : tokens ≤ launch.realTokenReserves.toNat
  room : tokens < launch.y
  quoted : cost = ConstantProduct.cost launch.x launch.y tokens
  realSol : launch'.realSolReserves.toNat = launch.realSolReserves.toNat + cost
  capped : launch'.realSolReserves.toNat ≤ maxRealSolReserves.toNat
  realTokens : launch'.realTokenReserves.toNat + tokens = launch.realTokenReserves.toNat
  virtualTokens : launch'.y + tokens = launch.y
  tokensSold : launch'.tokensSold.toNat = launch.tokensSold.toNat + tokens
  frame : launch' = { launch with
    realSolReserves := launch'.realSolReserves
    realTokenReserves := launch'.realTokenReserves
    virtualTokenReserves := launch'.virtualTokenReserves
    tokensSold := launch'.tokensSold }

/-- A sale of `tokens` for a gross `payout`, as the launch account records it. The subtraction
on `tokensSold` stops at zero. -/
structure Sold (launch : TokenLaunch) (tokens payout : ℕ) (launch' : TokenLaunch) : Prop where
  trading : launch.graduated = false
  positive : 0 < tokens
  quoted : payout =
    cappedProceeds launch.x launch.y tokens launch.realSolReserves.toNat
  realSol : launch'.realSolReserves.toNat + payout = launch.realSolReserves.toNat
  realTokens : launch'.realTokenReserves.toNat = launch.realTokenReserves.toNat + tokens
  virtualTokens : launch'.y = launch.y + tokens
  tokensSold : launch'.tokensSold.toNat = launch.tokensSold.toNat - tokens
  frame : launch' = { launch with
    realSolReserves := launch'.realSolReserves
    realTokenReserves := launch'.realTokenReserves
    virtualTokenReserves := launch'.virtualTokenReserves
    tokensSold := launch'.tokensSold }

theorem Bought.virtualSol {launch launch' : TokenLaunch} {tokens cost : ℕ}
    (bought : launch.Bought tokens cost launch') :
    launch'.virtualSolReserves = launch.virtualSolReserves := by
  rw [bought.frame]

theorem Bought.x_eq {launch launch' : TokenLaunch} {tokens cost : ℕ}
    (bought : launch.Bought tokens cost launch') : launch'.x = launch.x + cost := by
  rw [x, x, bought.virtualSol, bought.realSol, Nat.add_assoc]

theorem Sold.virtualSol {launch launch' : TokenLaunch} {tokens payout : ℕ}
    (sold : launch.Sold tokens payout launch') :
    launch'.virtualSolReserves = launch.virtualSolReserves := by
  rw [sold.frame]

theorem Sold.x_eq {launch launch' : TokenLaunch} {tokens payout : ℕ}
    (sold : launch.Sold tokens payout launch') : launch'.x = launch.x - payout := by
  rw [x, x, sold.virtualSol, ← sold.realSol, ← Nat.add_assoc, Nat.add_sub_cancel]

end TokenLaunch

/-! ### Buying -/

/-- What a buyer is charged: for the tokens, for the fee, and in total. -/
structure BuyTerms where
  solToCurve : UInt64
  fee : UInt64
  totalCost : UInt64

/-- Steps 1 and 2 of `buy`: guards, quote, fee and slippage check. -/
def BuyTerms.quote (config : Config) (launch : TokenLaunch) (tokenAmountOut maxSolIn : UInt64) :
    Except MemecoinError BuyTerms := do
  require (¬ config.paused) .paused
  require (¬ launch.graduated) .alreadyGraduated
  require (tokenAmountOut > 0) .zeroBuyAmount
  let solToCurve ← solInForTokensOut launch.virtualSolReserves launch.virtualTokenReserves
    launch.realSolReserves launch.realTokenReserves tokenAmountOut
  let fee ← feeOf solToCurve config.tradeFeeBps
  let totalCost ← okOr (checkedAdd solToCurve fee) .mathOverflow
  require (totalCost ≤ maxSolIn) .slippageExceeded
  pure { solToCurve, fee, totalCost }

/-- Step 6 of `buy`. -/
def TokenLaunch.applyBuy (launch : TokenLaunch) (solToCurve tokenAmountOut : UInt64) :
    Except MemecoinError TokenLaunch := do
  let realSolReserves ← okOr (checkedAdd launch.realSolReserves solToCurve) .mathOverflow
  require (realSolReserves ≤ TokenLaunch.maxRealSolReserves) .betaCapExceeded
  let realTokenReserves ← okOr (checkedSub launch.realTokenReserves tokenAmountOut) .mathUnderflow
  let virtualTokenReserves ← okOr (checkedSub launch.virtualTokenReserves tokenAmountOut)
    .mathUnderflow
  let tokensSold ← okOr (checkedAdd launch.tokensSold tokenAmountOut) .mathOverflow
  pure { launch with realSolReserves, realTokenReserves, virtualTokenReserves, tokensSold }

/-- The event of `buy`, for the launch account after step 6. -/
def BuyTerms.executed (terms : BuyTerms) (mint trader : Pubkey) (tokenAmountOut : UInt64)
    (shares : ThreeWaySplit) (launch : TokenLaunch) (timestamp : Int64) : Event :=
  .tradeExecuted {
    mint, trader
    isBuy := true
    solAmount := terms.solToCurve
    tokenAmount := tokenAmountOut
    feePaid := terms.fee
    creatorShare := shares.creator
    dinoShare := shares.dino
    treasuryShare := shares.treasury
    newRealSolReserves := launch.realSolReserves
    newRealTokenReserves := launch.realTokenReserves
    timestamp }

/-- `buy`: the charge goes to the vault, the fee to its three wallets, the tokens to the buyer. -/
def Buy.handler (accounts : TradeAccounts) (world : World) (tokenAmountOut maxSolIn : UInt64) :
    Except ProgramError World := do
  let (config, launch) ← accounts.validate world
  let terms ← (BuyTerms.quote config launch tokenAmountOut maxSolIn).mapError .memecoin
  let world ← world.systemTransfer accounts.trader accounts.curveVault terms.solToCurve
  let shares ← (splitThreeWay terms.fee config.tradeSplitCreatorBps config.tradeSplitDinoBps
    config.tradeSplitTreasuryBps).mapError .memecoin
  let world ← world.payShares accounts.trader (accounts.feePayments shares)
  let world ← world.tokenTransfer accounts.curveTokenAccount accounts.traderTokenAccount
    accounts.launch tokenAmountOut
  let launch ← (launch.applyBuy terms.solToCurve tokenAmountOut).mapError .memecoin
  pure ((world.writeLaunch accounts.launch launch).emit (terms.executed launch.mint accounts.trader
    tokenAmountOut shares launch world.unixTimestamp))

/-- An accepted buy: what it read, what it computed and what it left. -/
structure Buy.Execution (accounts : TradeAccounts) (world : World)
    (tokenAmountOut maxSolIn : UInt64) (world' : World) where
  config : Config
  launch : TokenLaunch
  terms : BuyTerms
  shares : ThreeWaySplit
  launch' : TokenLaunch
  met : accounts.Met world config launch
  notPaused : config.paused = false
  bought : launch.Bought tokenAmountOut.toNat terms.solToCurve.toNat launch'
  fee : terms.fee.toNat = terms.solToCurve.toNat * config.tradeFeeBps.toNat / 10_000
  slippage : terms.solToCurve.toNat + terms.fee.toNat ≤ maxSolIn.toNat
  creatorShare : shares.creator.toNat =
    terms.fee.toNat * config.tradeSplitCreatorBps.toNat / 10_000
  dinoShare : shares.dino.toNat = terms.fee.toNat * config.tradeSplitDinoBps.toNat / 10_000
  sharesTotal : shares.creator.toNat + shares.dino.toNat + shares.treasury.toNat =
    terms.fee.toNat
  lamports : ∀ holder, world'.lamports holder +
      (if holder = accounts.trader then terms.solToCurve.toNat + terms.fee.toNat else 0) =
    world.lamports holder +
      (if holder = .vault accounts.mint then terms.solToCurve.toNat else 0) +
      World.receipts (accounts.feePayments shares) holder
  tokens : world.tokenAccounts.Moved accounts.curveTokenAccount accounts.traderTokenAccount
    tokenAmountOut.toNat accounts.mint (.launch accounts.mint) accounts.trader
    world'.tokenAccounts
  launches : world'.launches =
    Function.update world.launches (.launch accounts.mint) (some launch')
  events : world'.events = world.events ++ [terms.executed accounts.mint accounts.trader
    tokenAmountOut shares launch' world.unixTimestamp]
  frame : world' = { world with
    lamports := world'.lamports
    tokenAccounts := world'.tokenAccounts
    launches := world'.launches
    events := world'.events }

theorem toNat_pos_of_gt_zero {amount : UInt64} : amount > 0 ↔ 0 < amount.toNat := by
  rw [gt_iff_lt, UInt64.lt_iff_toNat_lt, UInt64.toNat_zero]

theorem BuyTerms.quote_eq_ok {config : Config} {launch : TokenLaunch}
    {tokenAmountOut maxSolIn : UInt64} {terms : BuyTerms} :
    BuyTerms.quote config launch tokenAmountOut maxSolIn = .ok terms ↔
      config.paused = false ∧ launch.graduated = false ∧
        solInForTokensOut launch.virtualSolReserves launch.virtualTokenReserves
          launch.realSolReserves launch.realTokenReserves tokenAmountOut = .ok terms.solToCurve ∧
        terms.fee.toNat = terms.solToCurve.toNat * config.tradeFeeBps.toNat / 10_000 ∧
        terms.totalCost.toNat = terms.solToCurve.toNat + terms.fee.toNat ∧
        terms.totalCost.toNat ≤ maxSolIn.toNat := by
  simp only [quote, bind_eq_ok, pure_eq_ok, require_eq_ok, okOr_eq_ok, feeOf_eq_ok,
    checkedAdd_eq_some, exists_const, toNat_pos_of_gt_zero, UInt64.le_iff_toNat_le,
    Bool.not_eq_true]
  constructor
  · rintro ⟨notPaused, trading, _, solToCurve, quoted, fee, feeValue, total, totalValue, slippage,
      rfl⟩
    exact ⟨notPaused, trading, quoted, feeValue, totalValue, slippage⟩
  · rintro ⟨notPaused, trading, quoted, feeValue, totalValue, slippage⟩
    exact ⟨notPaused, trading, (solInForTokensOut_eq_ok.mp quoted).1, _, quoted, _, feeValue, _,
      totalValue, slippage, rfl⟩

/-- The fee of a buy is what `apply_fee` takes of the charge. -/
theorem BuyTerms.quote_applyFee {config : Config} {launch : TokenLaunch}
    {tokenAmountOut maxSolIn fee net : UInt64} {terms : BuyTerms}
    (quoted : BuyTerms.quote config launch tokenAmountOut maxSolIn = .ok terms)
    (applied : applyFee terms.solToCurve config.tradeFeeBps = .ok (fee, net)) :
    terms.fee = fee := by
  obtain ⟨_, _, _, charged, _⟩ := quote_eq_ok.mp quoted
  exact UInt64.toNat_inj.mp (charged.trans (applyFee_eq_ok.mp applied).1.symm)

theorem TokenLaunch.applyBuy_eq_ok {launch launch' : TokenLaunch}
    {solToCurve tokenAmountOut : UInt64} :
    launch.applyBuy solToCurve tokenAmountOut = .ok launch' ↔
      launch'.realSolReserves.toNat = launch.realSolReserves.toNat + solToCurve.toNat ∧
        launch'.realSolReserves.toNat ≤ maxRealSolReserves.toNat ∧
        launch'.realTokenReserves.toNat + tokenAmountOut.toNat =
          launch.realTokenReserves.toNat ∧
        launch'.y + tokenAmountOut.toNat = launch.y ∧
        launch'.tokensSold.toNat = launch.tokensSold.toNat + tokenAmountOut.toNat ∧
        launch' = { launch with
          realSolReserves := launch'.realSolReserves
          realTokenReserves := launch'.realTokenReserves
          virtualTokenReserves := launch'.virtualTokenReserves
          tokensSold := launch'.tokensSold } := by
  simp only [applyBuy, bind_eq_ok, pure_eq_ok, require_eq_ok, okOr_eq_ok, checkedAdd_eq_some,
    checkedSub_eq_some, exists_const, UInt64.le_iff_toNat_le, y]
  constructor
  · rintro ⟨_, realSol, capped, _, realTokens, _, virtualTokens, _, sold, rfl⟩
    exact ⟨realSol, capped, realTokens, virtualTokens, sold, rfl⟩
  · rintro ⟨realSol, capped, realTokens, virtualTokens, sold, frame⟩
    exact ⟨_, realSol, capped, _, realTokens, _, virtualTokens, _, sold, frame.symm⟩

/-- What an accepted buy did. -/
theorem Buy.execution {accounts : TradeAccounts} {world world' : World}
    {tokenAmountOut maxSolIn : UInt64}
    (accepted : Buy.handler accounts world tokenAmountOut maxSolIn = .ok world') :
    Nonempty (Buy.Execution accounts world tokenAmountOut maxSolIn world') := by
  simp only [handler, bind_eq_ok, pure_eq_ok, mapError_eq_ok, Prod.exists,
    TradeAccounts.validate_eq_ok, BuyTerms.quote_eq_ok, splitThreeWay_eq_ok,
    TokenLaunch.applyBuy_eq_ok] at accepted
  obtain ⟨config, launch, met, terms, ⟨notPaused, trading, quoted, fee, total, slippage⟩, paid,
    first, shares, ⟨creatorShare, dinoShare, sharesTotal⟩, shared, second, moved, third, launch',
    ⟨realSol, capped, realTokens, virtualTokens, sold, frame⟩, rfl⟩ := accepted
  obtain ⟨positive, available, room, _, cost⟩ := solInForTokensOut_eq_ok.mp quoted
  have curvePayment := World.systemTransfer_ok first
  obtain ⟨lamports, rfl⟩ : ∃ lamports, paid = { world with lamports } := ⟨_, curvePayment.frame⟩
  have feePayment := World.payShares_ok second
  obtain ⟨lamports', rfl⟩ : ∃ lamports', shared = { world with lamports := lamports' } :=
    ⟨_, feePayment.frame⟩
  obtain ⟨tokenFrame, mint, owner, tokens⟩ := World.tokenTransfer_ok third
  obtain ⟨tokenAccounts, rfl⟩ : ∃ tokenAccounts,
      moved = { world with lamports := lamports', tokenAccounts } := ⟨_, tokenFrame⟩
  obtain ⟨rfl, -⟩ := Prod.mk.inj (Option.some.inj (met.curveTokenAccount.symm.trans tokens.sourceShape))
  obtain ⟨-, rfl⟩ :=
    Prod.mk.inj (Option.some.inj (met.traderTokenAccount.symm.trans tokens.destinationShape))
  rw [met.launchAddress] at tokens
  refine ⟨{
    config, launch, terms, shares, launch', met, notPaused, fee, creatorShare, dinoShare,
    sharesTotal, tokens
    bought := ⟨trading, positive, available, room, cost, realSol, capped, realTokens,
      virtualTokens, sold, frame⟩
    slippage := total ▸ slippage
    lamports := fun holder => ?_
    launches := by rw [met.launchAddress]; rfl
    events := ?_
    frame := rfl }⟩
  · have paid := curvePayment.lamports_andShares feePayment holder
    rw [met.vaultAddress, accounts.owed_feePayments, sharesTotal] at paid
    exact paid
  · have mint : launch'.mint = accounts.mint := by rw [frame, met.hasOne]
    rw [← mint]
    rfl

theorem Buy.Execution.launch_after {accounts : TradeAccounts} {world world' : World}
    {tokenAmountOut maxSolIn : UInt64}
    (bought : Execution accounts world tokenAmountOut maxSolIn world') :
    world'.launches (.launch accounts.mint) = some bought.launch' := by
  rw [bought.launches, Function.update_self]

/-- A buyer without a share of the fee pays the charge and the fee. -/
theorem Buy.Execution.trader_lamports {accounts : TradeAccounts} {world world' : World}
    {tokenAmountOut maxSolIn : UInt64}
    (bought : Execution accounts world tokenAmountOut maxSolIn world')
    (outsider : World.receipts (accounts.feePayments bought.shares) accounts.trader = 0) :
    world'.lamports accounts.trader + (bought.terms.solToCurve.toNat + bought.terms.fee.toNat) =
      world.lamports accounts.trader := by
  have paid := bought.lamports accounts.trader
  rwa [if_pos rfl, outsider, if_neg (Pubkey.ne_of_canSign bought.met.signer rfl)] at paid

/-- A vault without a share of the fee receives the charge. -/
theorem Buy.Execution.vault_lamports {accounts : TradeAccounts} {world world' : World}
    {tokenAmountOut maxSolIn : UInt64}
    (bought : Execution accounts world tokenAmountOut maxSolIn world')
    (outsider : World.receipts (accounts.feePayments bought.shares) (.vault accounts.mint) = 0) :
    world'.lamports (.vault accounts.mint) =
      world.lamports (.vault accounts.mint) + bought.terms.solToCurve.toNat := by
  have paid := bought.lamports (.vault accounts.mint)
  rwa [if_neg (Pubkey.ne_of_canSign bought.met.signer rfl).symm, if_pos rfl, outsider] at paid

/-! ### Selling -/

/-- What a seller is paid: before the fee, the fee, after it, and the three shares of the fee. -/
structure SellTerms where
  grossSolOut : UInt64
  fee : UInt64
  netSolOut : UInt64
  shares : ThreeWaySplit

/-- Steps 1 and 2 of `sell`: guards, quote, fee, slippage check and split. -/
def SellTerms.quote (config : Config) (launch : TokenLaunch) (tokenAmountIn minSolOut : UInt64) :
    Except MemecoinError SellTerms := do
  require (¬ config.paused) .paused
  require (¬ launch.graduated) .alreadyGraduated
  require (tokenAmountIn > 0) .zeroSellAmount
  let grossSolOut ← solOutForTokensIn launch.virtualSolReserves launch.virtualTokenReserves
    launch.realSolReserves tokenAmountIn
  require (grossSolOut ≤ launch.realSolReserves) .insufficientReserves
  let fee ← feeOf grossSolOut config.tradeFeeBps
  let netSolOut ← okOr (checkedSub grossSolOut fee) .mathUnderflow
  require (netSolOut ≥ minSolOut) .insufficientSolOut
  let shares ← splitThreeWay fee config.tradeSplitCreatorBps config.tradeSplitDinoBps
    config.tradeSplitTreasuryBps
  pure { grossSolOut, fee, netSolOut, shares }

/-- Step 5 of `sell`. -/
def TokenLaunch.applySell (launch : TokenLaunch) (grossSolOut tokenAmountIn : UInt64) :
    Except MemecoinError TokenLaunch := do
  let realSolReserves ← okOr (checkedSub launch.realSolReserves grossSolOut) .mathUnderflow
  let realTokenReserves ← okOr (checkedAdd launch.realTokenReserves tokenAmountIn) .mathOverflow
  let virtualTokenReserves ← okOr (checkedAdd launch.virtualTokenReserves tokenAmountIn)
    .mathOverflow
  let tokensSold := saturatingSub launch.tokensSold tokenAmountIn
  pure { launch with realSolReserves, realTokenReserves, virtualTokenReserves, tokensSold }

/-- The four payments of a sale: the seller's net amount and the fee shares. -/
def TradeAccounts.salePayments (accounts : TradeAccounts) (terms : SellTerms) :
    List (Pubkey × UInt64) :=
  (accounts.trader, terms.netSolOut) :: accounts.feePayments terms.shares

/-- The event of `sell`, for the launch account after step 5. -/
def SellTerms.executed (terms : SellTerms) (mint trader : Pubkey) (tokenAmountIn : UInt64)
    (launch : TokenLaunch) (timestamp : Int64) : Event :=
  .tradeExecuted {
    mint, trader
    isBuy := false
    solAmount := terms.grossSolOut
    tokenAmount := tokenAmountIn
    feePaid := terms.fee
    creatorShare := terms.shares.creator
    dinoShare := terms.shares.dino
    treasuryShare := terms.shares.treasury
    newRealSolReserves := launch.realSolReserves
    newRealTokenReserves := launch.realTokenReserves
    timestamp }

/-- `sell`: the tokens go to the curve, and the vault pays the seller and the fee wallets. -/
def Sell.handler (accounts : TradeAccounts) (world : World) (tokenAmountIn minSolOut : UInt64) :
    Except ProgramError World := do
  let (config, launch) ← accounts.validate world
  let terms ← (SellTerms.quote config launch tokenAmountIn minSolOut).mapError .memecoin
  let world ← world.tokenTransfer accounts.traderTokenAccount accounts.curveTokenAccount
    accounts.trader tokenAmountIn
  let world ← world.payShares accounts.curveVault (accounts.salePayments terms)
  let launch ← (launch.applySell terms.grossSolOut tokenAmountIn).mapError .memecoin
  pure ((world.writeLaunch accounts.launch launch).emit (terms.executed launch.mint accounts.trader
    tokenAmountIn launch world.unixTimestamp))

/-- An accepted sale: what it read, what it computed and what it left. -/
structure Sell.Execution (accounts : TradeAccounts) (world : World)
    (tokenAmountIn minSolOut : UInt64) (world' : World) where
  config : Config
  launch : TokenLaunch
  terms : SellTerms
  launch' : TokenLaunch
  met : accounts.Met world config launch
  notPaused : config.paused = false
  sold : launch.Sold tokenAmountIn.toNat terms.grossSolOut.toNat launch'
  fee : terms.fee.toNat = terms.grossSolOut.toNat * config.tradeFeeBps.toNat / 10_000
  net : terms.netSolOut.toNat + terms.fee.toNat = terms.grossSolOut.toNat
  slippage : minSolOut.toNat ≤ terms.netSolOut.toNat
  creatorShare : terms.shares.creator.toNat =
    terms.fee.toNat * config.tradeSplitCreatorBps.toNat / 10_000
  dinoShare : terms.shares.dino.toNat =
    terms.fee.toNat * config.tradeSplitDinoBps.toNat / 10_000
  sharesTotal : terms.shares.creator.toNat + terms.shares.dino.toNat +
    terms.shares.treasury.toNat = terms.fee.toNat
  lamports : ∀ holder, world'.lamports holder +
      (if holder = .vault accounts.mint then terms.grossSolOut.toNat else 0) =
    world.lamports holder + World.receipts (accounts.salePayments terms) holder
  tokens : world.tokenAccounts.Moved accounts.traderTokenAccount accounts.curveTokenAccount
    tokenAmountIn.toNat accounts.mint accounts.trader (.launch accounts.mint)
    world'.tokenAccounts
  launches : world'.launches =
    Function.update world.launches (.launch accounts.mint) (some launch')
  events : world'.events = world.events ++ [terms.executed accounts.mint accounts.trader
    tokenAmountIn launch' world.unixTimestamp]
  frame : world' = { world with
    lamports := world'.lamports
    tokenAccounts := world'.tokenAccounts
    launches := world'.launches
    events := world'.events }

theorem SellTerms.quote_eq_ok {config : Config} {launch : TokenLaunch}
    {tokenAmountIn minSolOut : UInt64} {terms : SellTerms} :
    SellTerms.quote config launch tokenAmountIn minSolOut = .ok terms ↔
      config.paused = false ∧ launch.graduated = false ∧
        solOutForTokensIn launch.virtualSolReserves launch.virtualTokenReserves
          launch.realSolReserves tokenAmountIn = .ok terms.grossSolOut ∧
        terms.fee.toNat = terms.grossSolOut.toNat * config.tradeFeeBps.toNat / 10_000 ∧
        terms.netSolOut.toNat + terms.fee.toNat = terms.grossSolOut.toNat ∧
        minSolOut.toNat ≤ terms.netSolOut.toNat ∧
        splitThreeWay terms.fee config.tradeSplitCreatorBps config.tradeSplitDinoBps
          config.tradeSplitTreasuryBps = .ok terms.shares := by
  simp only [quote, bind_eq_ok, pure_eq_ok, require_eq_ok, okOr_eq_ok, feeOf_eq_ok,
    checkedSub_eq_some, exists_const, toNat_pos_of_gt_zero, UInt64.le_iff_toNat_le, ge_iff_le,
    Bool.not_eq_true]
  constructor
  · rintro ⟨notPaused, trading, _, gross, quoted, _, fee, feeValue, net, netValue, slippage, shares,
      split, rfl⟩
    exact ⟨notPaused, trading, quoted, feeValue, netValue, slippage, split⟩
  · rintro ⟨notPaused, trading, quoted, feeValue, netValue, slippage, split⟩
    obtain ⟨positive, _, _, payout⟩ := solOutForTokensIn_eq_ok.mp quoted
    exact ⟨notPaused, trading, positive, _, quoted, payout ▸ Nat.min_le_right _ _, _, feeValue, _,
      netValue, slippage, _, split, rfl⟩

/-- A sale is paid what `apply_fee` leaves. -/
theorem SellTerms.quote_applyFee {config : Config} {launch : TokenLaunch}
    {tokenAmountIn minSolOut : UInt64} {terms : SellTerms}
    (quoted : SellTerms.quote config launch tokenAmountIn minSolOut = .ok terms) :
    applyFee terms.grossSolOut config.tradeFeeBps = .ok (terms.fee, terms.netSolOut) := by
  obtain ⟨_, _, _, charged, rest, _⟩ := quote_eq_ok.mp quoted
  exact applyFee_eq_ok.mpr ⟨charged, rest⟩

theorem TokenLaunch.applySell_eq_ok {launch launch' : TokenLaunch}
    {grossSolOut tokenAmountIn : UInt64} :
    launch.applySell grossSolOut tokenAmountIn = .ok launch' ↔
      launch'.realSolReserves.toNat + grossSolOut.toNat = launch.realSolReserves.toNat ∧
        launch'.realTokenReserves.toNat =
          launch.realTokenReserves.toNat + tokenAmountIn.toNat ∧
        launch'.y = launch.y + tokenAmountIn.toNat ∧
        launch'.tokensSold.toNat = launch.tokensSold.toNat - tokenAmountIn.toNat ∧
        launch' = { launch with
          realSolReserves := launch'.realSolReserves
          realTokenReserves := launch'.realTokenReserves
          virtualTokenReserves := launch'.virtualTokenReserves
          tokensSold := launch'.tokensSold } := by
  simp only [applySell, bind_eq_ok, pure_eq_ok, okOr_eq_ok, checkedAdd_eq_some,
    checkedSub_eq_some, y]
  constructor
  · rintro ⟨_, realSol, _, realTokens, _, virtualTokens, rfl⟩
    exact ⟨realSol, realTokens, virtualTokens, saturatingSub_toNat _ _, rfl⟩
  · rintro ⟨realSol, realTokens, virtualTokens, sold, frame⟩
    refine ⟨_, realSol, _, realTokens, _, virtualTokens, ?_⟩
    rw [← saturatingSub_toNat, UInt64.toNat_inj] at sold
    rw [← sold]
    exact frame.symm

theorem TokenLaunch.applySell_total {launch : TokenLaunch} {grossSolOut tokenAmountIn : UInt64}
    (covered : grossSolOut.toNat ≤ launch.realSolReserves.toNat)
    (realTokens : launch.realTokenReserves.toNat + tokenAmountIn.toNat < 2 ^ 64)
    (virtualTokens : launch.y + tokenAmountIn.toNat < 2 ^ 64) :
    ∃ launch', launch.applySell grossSolOut tokenAmountIn = .ok launch' := by
  have word := launch.realSolReserves.toNat_lt
  obtain ⟨realSol, first⟩ : ∃ realSol : UInt64,
      realSol.toNat = launch.realSolReserves.toNat - grossSolOut.toNat := exists_toNat_eq (by omega)
  obtain ⟨realToken, second⟩ := exists_toNat_eq realTokens
  obtain ⟨virtualToken, third⟩ := exists_toNat_eq virtualTokens
  refine ⟨{ launch with
    realSolReserves := realSol
    realTokenReserves := realToken
    virtualTokenReserves := virtualToken
    tokensSold := saturatingSub launch.tokensSold tokenAmountIn }, applySell_eq_ok.mpr
      ⟨?_, second, third, saturatingSub_toNat _ _, rfl⟩⟩
  show realSol.toNat + grossSolOut.toNat = launch.realSolReserves.toNat
  omega

theorem TradeAccounts.owed_salePayments (accounts : TradeAccounts) (terms : SellTerms) :
    World.owed (accounts.salePayments terms) = terms.netSolOut.toNat +
      (terms.shares.creator.toNat + terms.shares.dino.toNat + terms.shares.treasury.toNat) := by
  rw [salePayments, World.owed_cons, owed_feePayments]

/-- What an accepted sale did. -/
theorem Sell.execution {accounts : TradeAccounts} {world world' : World}
    {tokenAmountIn minSolOut : UInt64}
    (accepted : Sell.handler accounts world tokenAmountIn minSolOut = .ok world') :
    Nonempty (Sell.Execution accounts world tokenAmountIn minSolOut world') := by
  simp only [handler, bind_eq_ok, pure_eq_ok, mapError_eq_ok, Prod.exists,
    TradeAccounts.validate_eq_ok, SellTerms.quote_eq_ok, splitThreeWay_eq_ok,
    TokenLaunch.applySell_eq_ok] at accepted
  obtain ⟨config, launch, met, terms, ⟨notPaused, trading, quoted, fee, net, slippage, creatorShare,
    dinoShare, sharesTotal⟩, moved, first, drained, second, launch',
    ⟨realSol, realTokens, virtualTokens, sold, frame⟩, rfl⟩ := accepted
  obtain ⟨positive, _, _, payout⟩ := solOutForTokensIn_eq_ok.mp quoted
  obtain ⟨tokenFrame, mint, owner, tokens⟩ := World.tokenTransfer_ok first
  obtain ⟨tokenAccounts, rfl⟩ : ∃ tokenAccounts, moved = { world with tokenAccounts } :=
    ⟨_, tokenFrame⟩
  have payment := World.payShares_ok second
  obtain ⟨lamports, rfl⟩ : ∃ lamports, drained = { world with lamports, tokenAccounts } :=
    ⟨_, payment.frame⟩
  obtain ⟨rfl, -⟩ :=
    Prod.mk.inj (Option.some.inj (met.traderTokenAccount.symm.trans tokens.sourceShape))
  obtain ⟨-, rfl⟩ :=
    Prod.mk.inj (Option.some.inj (met.curveTokenAccount.symm.trans tokens.destinationShape))
  refine ⟨{
    config, launch, terms, launch', met, notPaused, fee, net, slippage, creatorShare, dinoShare,
    sharesTotal, tokens
    sold := ⟨trading, positive, payout, realSol, realTokens, virtualTokens, sold, frame⟩
    lamports := fun holder => ?_
    launches := by rw [met.launchAddress]; rfl
    events := ?_
    frame := rfl }⟩
  · have paid := payment.lamports holder
    rw [met.vaultAddress, accounts.owed_salePayments, sharesTotal, net] at paid
    exact paid
  · have mint : launch'.mint = accounts.mint := by rw [frame, met.hasOne]
    rw [← mint]
    rfl

theorem Sell.Execution.launch_after {accounts : TradeAccounts} {world world' : World}
    {tokenAmountIn minSolOut : UInt64}
    (sold : Execution accounts world tokenAmountIn minSolOut world') :
    world'.launches (.launch accounts.mint) = some sold.launch' := by
  rw [sold.launches, Function.update_self]

/-- A seller without a share of the fee receives the net amount. -/
theorem Sell.Execution.trader_lamports {accounts : TradeAccounts} {world world' : World}
    {tokenAmountIn minSolOut : UInt64}
    (sold : Execution accounts world tokenAmountIn minSolOut world')
    (outsider : World.receipts (accounts.feePayments sold.terms.shares) accounts.trader = 0) :
    world'.lamports accounts.trader =
      world.lamports accounts.trader + sold.terms.netSolOut.toNat := by
  have paid := sold.lamports accounts.trader
  rwa [TradeAccounts.salePayments, World.receipts_cons, if_pos rfl, outsider,
    if_neg (Pubkey.ne_of_canSign sold.met.signer rfl)] at paid

/-- A vault without a share of the fee pays the gross amount. -/
theorem Sell.Execution.vault_lamports {accounts : TradeAccounts} {world world' : World}
    {tokenAmountIn minSolOut : UInt64}
    (sold : Execution accounts world tokenAmountIn minSolOut world')
    (outsider :
      World.receipts (accounts.feePayments sold.terms.shares) (.vault accounts.mint) = 0) :
    world'.lamports (.vault accounts.mint) + sold.terms.grossSolOut.toNat =
      world.lamports (.vault accounts.mint) := by
  have paid := sold.lamports (.vault accounts.mint)
  rwa [TradeAccounts.salePayments, World.receipts_cons, if_pos rfl, outsider,
    if_neg (Pubkey.ne_of_canSign sold.met.signer rfl).symm] at paid

end Memecoin
