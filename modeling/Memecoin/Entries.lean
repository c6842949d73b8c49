/-
This file books what an accepted action does to the balances. The entries of an
action are a list of signed amounts that can be read off the action, the
configuration and the launch before it runs; an accepted action gives every
holder exactly the sum of the holder's entries, and so for token accounts. All
that is known about who pays whom follows from the entries.
-/

import Memecoin.Settlement

namespace Memecoin

open Checked

/-! ### The entries of an action -/

namespace Config

/-- A trade fee: two floors and the rest. -/
def tradeFeeEntries (config : Config) (creator : Pubkey) (fee : ℕ) : List (Pubkey × ℤ) :=
  let creatorShare := fee * config.tradeSplitCreatorBps.toNat / 10_000
  let dinoShare := fee * config.tradeSplitDinoBps.toNat / 10_000
  [(creator, (creatorShare : ℤ)), (config.dinoBuybackWallet, (dinoShare : ℤ)),
    (config.treasuryWallet, (fee : ℤ) - creatorShare - dinoShare)]

/-- A creation or graduation fee: a floor and the rest. -/
def flatFeeEntries (config : Config) (fee : UInt64) (dinoBps : UInt16) : List (Pubkey × ℤ) :=
  let dinoShare := fee.toNat * dinoBps.toNat / 10_000
  [(config.dinoBuybackWallet, (dinoShare : ℤ)),
    (config.treasuryWallet, (fee.toNat : ℤ) - dinoShare)]

end Config

namespace TokenLaunch

/-- What a buy moves. -/
def buyEntries (launch : TokenLaunch) (config : Config) (buyer : Pubkey) (tokens : ℕ) :
    List (Pubkey × ℤ) :=
  (buyer, - (launch.totalCost config tokens : ℤ)) ::
    (.vault launch.mint, (launch.solToCurve tokens : ℤ)) ::
    config.tradeFeeEntries launch.creator (config.tradeFee (launch.solToCurve tokens))

/-- What a sale moves. -/
def sellEntries (launch : TokenLaunch) (config : Config) (seller : Pubkey) (tokens : ℕ) :
    List (Pubkey × ℤ) :=
  (.vault launch.mint, - (launch.grossSolOut tokens : ℤ)) ::
    (seller, (launch.grossSolOut tokens : ℤ) - config.tradeFee (launch.grossSolOut tokens)) ::
    config.tradeFeeEntries launch.creator (config.tradeFee (launch.grossSolOut tokens))

/-- What a graduation moves. -/
def graduationEntries (launch : TokenLaunch) (config : Config) : List (Pubkey × ℤ) :=
  (.vault launch.mint, - (launch.realSolReserves.toNat : ℤ)) ::
    (config.graduationAuthority,
      (launch.realSolReserves.toNat : ℤ) - config.graduationFeeLamports.toNat) ::
    config.flatFeeEntries config.graduationFeeLamports config.graduationSplitDinoBps

end TokenLaunch

/-- What a creation moves. -/
def Config.creationEntries (config : Config) (creator : Pubkey) : List (Pubkey × ℤ) :=
  (creator, - (config.creationFeeLamports.toNat : ℤ)) ::
    config.flatFeeEntries config.creationFeeLamports config.creationSplitDinoBps

/-- Entries that depend on the configuration and a launch. -/
def World.entriesAt (world : World) (mint : Pubkey)
    (entries : TokenLaunch → Config → List (Pubkey × ℤ)) : List (Pubkey × ℤ) :=
  world.config.elim [] fun config => (world.launches (.launch mint)).elim [] fun launch =>
    entries launch config

/-- The lamports that an action takes and gives, when it is accepted. -/
def World.lamportEntries (world : World) : Action → List (Pubkey × ℤ)
  | .createToken accounts _ _ => world.config.elim [] fun config =>
    config.creationEntries accounts.creator
  | .buy accounts tokenAmountOut _ => world.entriesAt accounts.mint fun launch config =>
    launch.buyEntries config accounts.trader tokenAmountOut.toNat
  | .sell accounts tokenAmountIn _ => world.entriesAt accounts.mint fun launch config =>
    launch.sellEntries config accounts.trader tokenAmountIn.toNat
  | .graduate accounts => world.entriesAt accounts.mint TokenLaunch.graduationEntries
  | .transferLamports source destination amount =>
    [(source, - (amount.toNat : ℤ)), (destination, (amount.toNat : ℤ))]
  | _ => []

/-- The base units that an action takes from and gives to token accounts, when it is accepted. -/
def Action.tokenEntries : Action → List (Pubkey × ℤ)
  | .createToken accounts _ _ =>
    [(.curveAccount accounts.mint, (TokenLaunch.curveAllocationUnits.toNat : ℤ))]
  | .buy accounts tokenAmountOut _ =>
    [(accounts.curveTokenAccount, - (tokenAmountOut.toNat : ℤ)),
      (accounts.traderTokenAccount, (tokenAmountOut.toNat : ℤ))]
  | .sell accounts tokenAmountIn _ =>
    [(accounts.traderTokenAccount, - (tokenAmountIn.toNat : ℤ)),
      (accounts.curveTokenAccount, (tokenAmountIn.toNat : ℤ))]
  | .graduate accounts =>
    [(.associatedToken accounts.graduationAuthority accounts.mint,
      (TokenLaunch.graduationReserveUnits.toNat : ℤ))]
  | .transferTokens source destination _ amount =>
    [(source, - (amount.toNat : ℤ)), (destination, (amount.toNat : ℤ))]
  | .burnTokens address _ amount => [(address, - (amount.toNat : ℤ))]
  | _ => []

/-- The mint and owner of the token account that an action opens, when it opens one. -/
def Action.opened (action : Action) (address : Pubkey) : Option (Pubkey × Pubkey) :=
  match action with
  | .createToken accounts _ _ =>
    if address = .curveAccount accounts.mint then some (accounts.mint, .launch accounts.mint)
    else none
  | .graduate accounts =>
    if address = .associatedToken accounts.graduationAuthority accounts.mint then
      some (accounts.mint, accounts.graduationAuthority)
    else none
  | .openTokenAccount opened mint owner => if address = opened then some (mint, owner) else none
  | _ => none

/-! ### Entries are balanced -/

theorem Config.total_tradeFeeEntries (config : Config) (creator : Pubkey) (fee : ℕ) :
    Balances.total (config.tradeFeeEntries creator fee) = fee := by
  simp only [tradeFeeEntries, Balances.total_cons, Balances.total_nil]
  ring

theorem Config.total_flatFeeEntries (config : Config) (fee : UInt64) (dinoBps : UInt16) :
    Balances.total (config.flatFeeEntries fee dinoBps) = fee.toNat := by
  simp only [flatFeeEntries, Balances.total_cons, Balances.total_nil]
  ring

theorem World.entriesAt_eq {world : World} {mint : Pubkey} {config : Config} {launch : TokenLaunch}
    (configured : world.config = some config)
    (present : world.launches (.launch mint) = some launch)
    (entries : TokenLaunch → Config → List (Pubkey × ℤ)) :
    world.entriesAt mint entries = entries launch config := by
  rw [entriesAt, configured, present]
  rfl

theorem World.total_entriesAt (world : World) (mint : Pubkey)
    {entries : TokenLaunch → Config → List (Pubkey × ℤ)}
    (balanced : ∀ launch config, Balances.total (entries launch config) = 0) :
    Balances.total (world.entriesAt mint entries) = 0 := by
  rw [entriesAt]
  cases world.config with
  | none => rfl
  | some config =>
    cases world.launches (.launch mint) with
    | none => rfl
    | some launch => exact balanced launch config

/-- No entries of lamports create or destroy any. -/
theorem World.total_lamportEntries (world : World) (action : Action) :
    Balances.total (world.lamportEntries action) = 0 := by
  cases action with
  | createToken accounts params bumps =>
    rw [lamportEntries]
    cases world.config with
    | none => rfl
    | some config =>
      show Balances.total (config.creationEntries accounts.creator) = 0
      rw [Config.creationEntries, Balances.total_cons, Config.total_flatFeeEntries]
      exact neg_add_cancel _
  | buy accounts tokenAmountOut maxSolIn =>
    refine world.total_entriesAt accounts.mint fun launch config => ?_
    rw [TokenLaunch.buyEntries, Balances.total_cons, Balances.total_cons,
      Config.total_tradeFeeEntries, TokenLaunch.totalCost]
    push_cast
    ring
  | sell accounts tokenAmountIn minSolOut =>
    refine world.total_entriesAt accounts.mint fun launch config => ?_
    rw [TokenLaunch.sellEntries, Balances.total_cons, Balances.total_cons,
      Config.total_tradeFeeEntries]
    ring
  | graduate accounts =>
    refine world.total_entriesAt accounts.mint fun launch config => ?_
    rw [TokenLaunch.graduationEntries, Balances.total_cons, Balances.total_cons,
      Config.total_flatFeeEntries]
    ring
  | transferLamports source destination amount =>
    simp only [lamportEntries, Balances.total_cons, Balances.total_nil]
    ring
  | _ => rfl

/-! ### Accepted actions are booked -/

open Balances (Booked)

theorem TokenLaunch.tradeFeeEntries_eq (launch : TokenLaunch) {config : Config} {fee : ℕ}
    {shares : ThreeWaySplit}
    (creator : shares.creator.toNat = fee * config.tradeSplitCreatorBps.toNat / 10_000)
    (dino : shares.dino.toNat = fee * config.tradeSplitDinoBps.toNat / 10_000)
    (total : shares.creator.toNat + shares.dino.toNat + shares.treasury.toNat = fee) :
    config.tradeFeeEntries launch.creator fee = launch.feeRoles config shares := by
  have treasury : (fee : ℤ) - shares.creator.toNat - shares.dino.toNat = shares.treasury.toNat := by
    omega
  simp only [Config.tradeFeeEntries, feeRoles, ← creator, ← dino, treasury]

theorem Config.flatFeeEntries_eq (config : Config) {fee : UInt64} {dinoBps : UInt16}
    {shares : TwoWaySplit} (dino : shares.dino.toNat = fee.toNat * dinoBps.toNat / 10_000)
    (total : shares.dino.toNat + shares.treasury.toNat = fee.toNat) :
    config.flatFeeEntries fee dinoBps = [(config.dinoBuybackWallet, (shares.dino.toNat : ℤ)),
      (config.treasuryWallet, (shares.treasury.toNat : ℤ))] := by
  have treasury : (fee.toNat : ℤ) - shares.dino.toNat = shares.treasury.toNat := by omega
  simp only [flatFeeEntries, ← dino, treasury]

theorem net_twoWallets (first second : Pubkey) (shares : TwoWaySplit) (holder : Pubkey) :
    Balances.net [(first, (shares.dino.toNat : ℤ)), (second, (shares.treasury.toNat : ℤ))] holder =
      World.receipts [(first, shares.dino), (second, shares.treasury)] holder := by
  simp only [Balances.net_cons, Balances.net_nil, World.receipts_cons, World.receipts_nil]
  push_cast
  rfl

theorem Buy.Execution.booked {accounts : TradeAccounts} {world world' : World}
    {tokenAmountOut maxSolIn : UInt64}
    (bought : Execution accounts world tokenAmountOut maxSolIn world') :
    Booked (bought.launch.buyEntries bought.config accounts.trader tokenAmountOut.toNat)
      world.lamports world'.lamports := by
  intro holder
  obtain ⟨charge, fee, total⟩ := bought.terms_eq
  have paid := bought.lamports holder
  rw [TokenLaunch.buyEntries, Balances.net_cons, Balances.net_cons, ← total, ← fee,
    bought.launch.tradeFeeEntries_eq bought.creatorShare bought.dinoShare bought.sharesTotal,
    bought.met.net_feeRoles, ← charge, bought.met.hasOne]
  split_ifs at paid ⊢ <;> omega

theorem Sell.Execution.booked {accounts : TradeAccounts} {world world' : World}
    {tokenAmountIn minSolOut : UInt64}
    (sold : Execution accounts world tokenAmountIn minSolOut world') :
    Booked (sold.launch.sellEntries sold.config accounts.trader tokenAmountIn.toNat)
      world.lamports world'.lamports := by
  intro holder
  obtain ⟨payout, fee, _⟩ := sold.terms_eq
  have paid := sold.lamports holder
  have net := sold.net
  rw [TradeAccounts.salePayments, World.receipts_cons] at paid
  rw [TokenLaunch.sellEntries, Balances.net_cons, Balances.net_cons, ← fee,
    sold.launch.tradeFeeEntries_eq sold.creatorShare sold.dinoShare sold.sharesTotal,
    sold.met.net_feeRoles, ← payout, sold.met.hasOne]
  split_ifs at paid ⊢ <;> omega

/-- What a creation pays, and what it emits. -/
theorem CreateToken.handler_paid {accounts : CreateToken} {world world' : World}
    {params : CreateTokenParams} {bumps : CreateTokenBumps}
    (accepted : accounts.handler world params bumps = .ok world') :
    ∃ (config : Config) (shares : TwoWaySplit), world.config = some config ∧
      splitTwoWay config.creationFeeLamports config.creationSplitDinoBps = .ok shares ∧
      config.creationEntries accounts.creator =
        [(accounts.creator, - (config.creationFeeLamports.toNat : ℤ)),
          (config.dinoBuybackWallet, (shares.dino.toNat : ℤ)),
          (config.treasuryWallet, (shares.treasury.toNat : ℤ))] ∧
      Booked (config.creationEntries accounts.creator) world.lamports world'.lamports ∧
      world'.events = world.events ++
        [accounts.created params config.creationFeeLamports shares world.unixTimestamp] := by
  simp only [handler, validate, bind_eq_ok, pure_eq_ok, mapError_eq_ok, require_eq_ok, Prod.exists,
    Prod.mk.injEq, World.loadConfig_eq_ok, splitTwoWay_eq_ok, exists_const] at accepted
  obtain ⟨_, _, ⟨_, config, ⟨_, configured⟩, dinoWallet, treasuryWallet, _, _, _, _, _, _, _,
    _, rfl, rfl⟩, _, _, _, _, shares, ⟨dino, total⟩, paid, first, _, _, minted, second, _, _,
    rfl⟩ := accepted
  have payment := World.payShares_ok first
  obtain ⟨_, _, _, _, frame, _⟩ := World.mintTo_ok second
  rw [payment.frame] at frame
  rw [frame]
  have entries := config.flatFeeEntries_eq dino total
  refine ⟨config, shares, configured, splitTwoWay_eq_ok.mpr ⟨dino, total⟩,
    by rw [Config.creationEntries, entries], fun holder => ?_, rfl⟩
  have change : paid.lamports holder + (if holder = accounts.creator then _ else 0) =
    world.lamports holder + _ := payment.lamports holder
  rw [feePayments, dinoWallet, treasuryWallet, World.owed_cons, World.owed_cons, World.owed_nil,
    Nat.add_zero, total] at change
  rw [Config.creationEntries, Balances.net_cons, entries, net_twoWallets]
  show (paid.lamports holder : ℤ) = world.lamports holder + _
  split_ifs at change ⊢ <;> omega

/-- What a graduation pays, in the amounts of its event. -/
theorem Graduate.Execution.paid {accounts : Graduate} {world world' : World}
    (graduated : accounts.Execution world world') :
    Booked [(.vault accounts.mint, - (graduated.remaining.toNat +
          graduated.config.graduationFeeLamports.toNat : ℤ)),
        (graduated.config.graduationAuthority, (graduated.remaining.toNat : ℤ)),
        (graduated.config.dinoBuybackWallet, (graduated.shares.dino.toNat : ℤ)),
        (graduated.config.treasuryWallet, (graduated.shares.treasury.toNat : ℤ))]
      world.lamports world'.lamports := by
  intro holder
  have change := graduated.lamports holder
  rw [World.receipts_append, feePayments, graduated.met.dinoBuybackWallet,
    graduated.met.treasuryWallet, graduated.met.graduationAuthority, ← graduated.remainingFee,
    World.receipts_cons _ _ _ [], World.receipts_nil] at change
  rw [Balances.net_cons, Balances.net_cons, net_twoWallets]
  split_ifs at change ⊢ <;> omega

/-- What a graduation pays, in what it read. -/
theorem Graduate.handler_paid {accounts : Graduate} {world world' : World}
    (accepted : accounts.handler world = .ok world') :
    ∃ config launch, accounts.Met world config launch ∧
      Booked (launch.graduationEntries config) world.lamports world'.lamports := by
  simp only [handler, bind_eq_ok, pure_eq_ok, mapError_eq_ok, Prod.exists, validate_eq_ok,
    feeSplit_eq_ok] at accepted
  obtain ⟨config, launch, opened, ⟨met, opening⟩, shares, ⟨_, _, _, covered, dino, total⟩, paid,
    first, _, _, minted, second, forwarded, third, rfl⟩ := accepted
  obtain ⟨_, openFrame, _⟩ := World.initAssociatedIfNeeded_ok opening
  obtain ⟨_, _, _, _, mintFrame, _⟩ := World.mintTo_ok second
  have same : minted.lamports = paid.lamports := by rw [mintFrame]
  have before : opened.lamports = world.lamports := by rw [openFrame]
  refine ⟨config, launch, met, fun holder => ?_⟩
  have change := (World.payShares_ok first).lamports_append (World.payShares_ok third) same holder
  have remaining : (saturatingSub launch.realSolReserves config.graduationFeeLamports).toNat +
      config.graduationFeeLamports.toNat = launch.realSolReserves.toNat := by
    rw [saturatingSub_toNat]
    omega
  rw [World.owed_append, owed_feePayments, total, World.owed_cons, World.owed_nil, Nat.add_zero,
    Nat.add_comm config.graduationFeeLamports.toNat, remaining, World.receipts_append, feePayments,
    met.dinoBuybackWallet, met.treasuryWallet, World.receipts_cons _ _ _ [], World.receipts_nil,
    met.vaultAddress, met.graduationAuthority, before] at change
  rw [TokenLaunch.graduationEntries, Balances.net_cons, Balances.net_cons,
    config.flatFeeEntries_eq dino total, net_twoWallets, met.hasOne]
  show (forwarded.lamports holder : ℤ) = world.lamports holder + _
  split_ifs at change ⊢ <;> omega

namespace World

variable {world world' : World} {action : Action}

/-- Every accepted action gives every holder the sum of the holder's entries. -/
theorem execute_lamports (accepted : world.execute action = .ok world') :
    Booked (world.lamportEntries action) world.lamports world'.lamports := by
  have same (unchanged : world'.lamports = world.lamports) :
      Booked [] world.lamports world'.lamports := fun holder => by
    rw [unchanged, Balances.net_nil, add_zero]
  cases action with
  | initializeConfig accounts params bump =>
    obtain ⟨_, _, _, _, frame⟩ := InitializeConfig.handler_ok accepted
    exact same (by rw [frame])
  | updateConfig accounts params =>
    obtain ⟨_, _, _, _, _, _, frame⟩ := UpdateConfig.handler_ok accepted
    exact same (by rw [frame])
  | setPaused accounts paused =>
    obtain ⟨_, _, _, frame⟩ := SetPaused.handler_ok accepted
    exact same (by rw [frame])
  | createToken accounts params bumps =>
    obtain ⟨config, _, configured, _, _, booked, _⟩ := CreateToken.handler_paid accepted
    rw [lamportEntries, configured]
    exact booked
  | buy accounts tokenAmountOut maxSolIn =>
    obtain ⟨bought⟩ := Buy.execution accepted
    rw [lamportEntries, entriesAt_eq bought.met.configPresent bought.met.launchPresent]
    exact bought.booked
  | sell accounts tokenAmountIn minSolOut =>
    obtain ⟨sold⟩ := Sell.execution accepted
    rw [lamportEntries, entriesAt_eq sold.met.configPresent sold.met.launchPresent]
    exact sold.booked
  | graduate accounts =>
    obtain ⟨config, launch, met, booked⟩ := Graduate.handler_paid accepted
    rw [lamportEntries, entriesAt_eq met.configPresent met.launchPresent]
    exact booked
  | sealGraduation accounts meteoraLbPair =>
    obtain ⟨_, _, _, _, _, _, frame⟩ := SealGraduation.handler_ok accepted
    exact same (by rw [frame])
  | transferLamports source destination amount =>
    obtain ⟨_, _, moved⟩ := bind_eq_ok.mp accepted
    intro holder
    have change := (systemTransfer_ok moved).lamports holder
    simp only [lamportEntries, Balances.net_cons, Balances.net_nil]
    split_ifs at change ⊢ <;> omega
  | openTokenAccount address mint owner =>
    obtain ⟨_, _, _, rfl⟩ := openTokenAccount_ok accepted
    exact same rfl
  | transferTokens source destination authority amount =>
    obtain ⟨_, _, transferred⟩ := bind_eq_ok.mp accepted
    obtain ⟨frame, _⟩ := tokenTransfer_ok transferred
    exact same (by rw [frame])
  | burnTokens address authority amount =>
    obtain ⟨_, _, burned⟩ := bind_eq_ok.mp accepted
    obtain ⟨_, _, _, frame, _⟩ := burn_ok burned
    exact same (by rw [frame])
  | setClock unixTimestamp =>
    obtain rfl := pure_eq_ok.mp accepted
    exact same rfl

/-- Every accepted action gives every token account the sum of the account's entries. -/
theorem execute_amounts (accepted : world.execute action = .ok world') :
    Booked action.tokenEntries world.tokenAccounts.amountAt world'.tokenAccounts.amountAt := by
  have same (unchanged : world'.tokenAccounts = world.tokenAccounts) :
      Booked [] world.tokenAccounts.amountAt world'.tokenAccounts.amountAt := fun address => by
    rw [unchanged, Balances.net_nil, add_zero]
  have moved {source destination mint sourceOwner destinationOwner : Pubkey} {amount : ℕ}
      (moved : world.tokenAccounts.Moved source destination amount mint sourceOwner
        destinationOwner world'.tokenAccounts) :
      Booked [(source, - (amount : ℤ)), (destination, (amount : ℤ))]
        world.tokenAccounts.amountAt world'.tokenAccounts.amountAt := fun address => by
    have change := moved.amountAt address
    rw [Balances.net_cons, Balances.net_cons, Balances.net_nil]
    split_ifs at change ⊢ <;> omega
  have credited {destination : Pubkey} {amount : ℕ} (credited : ∀ address,
      world'.tokenAccounts.amountAt address = world.tokenAccounts.amountAt address +
        (if address = destination then amount else 0)) :
      Booked [(destination, (amount : ℤ))]
        world.tokenAccounts.amountAt world'.tokenAccounts.amountAt := fun address => by
    rw [credited, Balances.net_cons, Balances.net_nil]
    push_cast
    rw [add_zero]
  cases action with
  | initializeConfig accounts params bump =>
    obtain ⟨_, _, _, _, frame⟩ := InitializeConfig.handler_ok accepted
    exact same (by rw [frame])
  | updateConfig accounts params =>
    obtain ⟨_, _, _, _, _, _, frame⟩ := UpdateConfig.handler_ok accepted
    exact same (by rw [frame])
  | setPaused accounts paused =>
    obtain ⟨_, _, _, frame⟩ := SetPaused.handler_ok accepted
    exact same (by rw [frame])
  | createToken accounts params bumps =>
    obtain ⟨created⟩ := CreateToken.execution accepted
    exact credited created.amountAt
  | buy accounts tokenAmountOut maxSolIn =>
    obtain ⟨bought⟩ := Buy.execution accepted
    exact moved bought.tokens
  | sell accounts tokenAmountIn minSolOut =>
    obtain ⟨sold⟩ := Sell.execution accepted
    exact moved sold.tokens
  | graduate accounts =>
    obtain ⟨graduated⟩ := Graduate.execution accepted
    rw [Action.tokenEntries, graduated.met.graduationAuthority]
    exact credited graduated.amountAt
  | sealGraduation accounts meteoraLbPair =>
    obtain ⟨_, _, _, _, _, _, frame⟩ := SealGraduation.handler_ok accepted
    exact same (by rw [frame])
  | transferLamports source destination amount =>
    obtain ⟨_, _, paid⟩ := bind_eq_ok.mp accepted
    exact same (by rw [(systemTransfer_ok paid).frame])
  | openTokenAccount address mint owner =>
    obtain ⟨_, _, absent, rfl⟩ := openTokenAccount_ok accepted
    intro other
    show (_ : ℤ) = _ + Balances.net [] other
    rw [Balances.net_nil, add_zero, initTokenAccount, TokenAccounts.amountAt_open absent]
  | transferTokens source destination authority amount =>
    obtain ⟨_, _, transferred⟩ := bind_eq_ok.mp accepted
    obtain ⟨_, _, _, tokens⟩ := tokenTransfer_ok transferred
    exact moved tokens
  | burnTokens address authority amount =>
    obtain ⟨_, _, burned⟩ := bind_eq_ok.mp accepted
    obtain ⟨_, _, _, _, _, debited⟩ := burn_ok burned
    intro other
    have change := debited.amountAt other
    rw [Action.tokenEntries, Balances.net_cons, Balances.net_nil]
    split_ifs at change ⊢ <;> omega
  | setClock unixTimestamp =>
    obtain rfl := pure_eq_ok.mp accepted
    exact same rfl

/-- Token accounts are opened by the actions that say so, and never change hands or close. -/
theorem execute_shape (accepted : world.execute action = .ok world') (address : Pubkey) :
    world'.tokenAccounts.shape address =
      (action.opened address).or (world.tokenAccounts.shape address) := by
  have or_ite {named : Prop} [Decidable named] {opened : Pubkey × Pubkey}
      {before : Option (Pubkey × Pubkey)} :
      (if named then some opened else before) =
        (if named then some opened else none).or before := by
    split_ifs <;> rfl
  cases action with
  | initializeConfig accounts params bump =>
    obtain ⟨_, _, _, _, frame⟩ := InitializeConfig.handler_ok accepted
    exact congrArg (fun world => world.tokenAccounts.shape address) frame
  | updateConfig accounts params =>
    obtain ⟨_, _, _, _, _, _, frame⟩ := UpdateConfig.handler_ok accepted
    exact congrArg (fun world => world.tokenAccounts.shape address) frame
  | setPaused accounts paused =>
    obtain ⟨_, _, _, frame⟩ := SetPaused.handler_ok accepted
    exact congrArg (fun world => world.tokenAccounts.shape address) frame
  | createToken accounts params bumps =>
    obtain ⟨created⟩ := CreateToken.execution accepted
    exact (created.shape address).trans or_ite
  | buy accounts tokenAmountOut maxSolIn =>
    obtain ⟨bought⟩ := Buy.execution accepted
    exact bought.tokens.shape address
  | sell accounts tokenAmountIn minSolOut =>
    obtain ⟨sold⟩ := Sell.execution accepted
    exact sold.tokens.shape address
  | graduate accounts =>
    obtain ⟨graduated⟩ := Graduate.execution accepted
    rw [Action.opened, graduated.met.graduationAuthority]
    exact (graduated.shape address).trans or_ite
  | sealGraduation accounts meteoraLbPair =>
    obtain ⟨_, _, _, _, _, _, frame⟩ := SealGraduation.handler_ok accepted
    exact congrArg (fun world => world.tokenAccounts.shape address) frame
  | transferLamports source destination amount =>
    obtain ⟨_, _, paid⟩ := bind_eq_ok.mp accepted
    exact congrArg (fun world => world.tokenAccounts.shape address) (systemTransfer_ok paid).frame
  | openTokenAccount opened mint owner =>
    obtain ⟨_, _, _, rfl⟩ := openTokenAccount_ok accepted
    exact (TokenAccounts.shape_set _ _ _ _).trans or_ite
  | transferTokens source destination authority amount =>
    obtain ⟨_, _, transferred⟩ := bind_eq_ok.mp accepted
    obtain ⟨_, _, _, tokens⟩ := tokenTransfer_ok transferred
    exact tokens.shape address
  | burnTokens address' authority amount =>
    obtain ⟨_, _, burned⟩ := bind_eq_ok.mp accepted
    obtain ⟨_, _, _, _, _, debited⟩ := burn_ok burned
    exact debited.shape address
  | setClock unixTimestamp =>
    obtain rfl := pure_eq_ok.mp accepted
    rfl

end World

end Memecoin
