/-
This file settles trades to the lamport and to the base unit. Every party of an
accepted trade gains or loses the sum of what its roles receive and pay, however
the wallets of the roles coincide. The fee is split into two floors and a
remainder, which is the treasury's share by a joint constraint of the
configuration alone. A sale right after a buy of the same amount takes the
launch back to where it was, so the two together cost exactly their fees.
-/

import Memecoin.Acceptance

namespace Memecoin

open Checked ConstantProduct

/-! ### Fee shares -/

/-- The shares of a trade fee. The treasury's exceeds its exact part by less than two lamports. -/
structure Config.FeeShares (config : Config) (fee : ℕ) (shares : ThreeWaySplit) : Prop where
  creator : shares.creator.toNat = fee * config.tradeSplitCreatorBps.toNat / 10_000
  dino : shares.dino.toNat = fee * config.tradeSplitDinoBps.toNat / 10_000
  total : shares.creator.toNat + shares.dino.toNat + shares.treasury.toNat = fee
  treasury_ge : fee * config.tradeSplitTreasuryBps.toNat ≤ shares.treasury.toNat * 10_000
  treasury_lt :
    shares.treasury.toNat * 10_000 < fee * config.tradeSplitTreasuryBps.toNat + 20_000

/-- The splits of a valid configuration add up to the whole, so the remainder is the treasury's. -/
theorem Config.Valid.feeShares {config : Config} (valid : config.Valid) {fee : ℕ}
    {shares : ThreeWaySplit}
    (creator : shares.creator.toNat = fee * config.tradeSplitCreatorBps.toNat / 10_000)
    (dino : shares.dino.toNat = fee * config.tradeSplitDinoBps.toNat / 10_000)
    (total : shares.creator.toNat + shares.dino.toNat + shares.treasury.toNat = fee) :
    config.FeeShares fee shares := by
  have whole : fee * config.tradeSplitCreatorBps.toNat + fee * config.tradeSplitDinoBps.toNat +
      fee * config.tradeSplitTreasuryBps.toNat = fee * 10_000 := by
    rw [← Nat.mul_add, ← Nat.mul_add, valid.tradeSplit]
  exact ⟨creator, dino, total, by omega, by omega⟩

/-- The roles of a trade fee. -/
def TokenLaunch.feeRoles (launch : TokenLaunch) (config : Config) (shares : ThreeWaySplit) :
    List (Pubkey × ℤ) :=
  [(launch.creator, shares.creator.toNat), (config.dinoBuybackWallet, shares.dino.toNat),
    (config.treasuryWallet, shares.treasury.toNat)]

theorem TradeAccounts.Met.net_feeRoles {accounts : TradeAccounts} {world : World} {config : Config}
    {launch : TokenLaunch} (met : accounts.Met world config launch) (shares : ThreeWaySplit)
    (holder : Pubkey) : Balances.net (launch.feeRoles config shares) holder =
      World.receipts (accounts.feePayments shares) holder := by
  simp only [TokenLaunch.feeRoles, feePayments, Balances.net_cons, Balances.net_nil,
    World.receipts_cons, World.receipts_nil, met.creatorWallet, met.dinoBuybackWallet,
    met.treasuryWallet]
  push_cast
  rfl

/-! ### Settled trades -/

/-- `amount` units went from one account to another, and no other account changed. -/
structure TokenAccounts.Delivered (accounts : TokenAccounts) (source destination : Pubkey)
    (amount : ℕ) (accounts' : TokenAccounts) : Prop where
  given : accounts'.amountAt source + amount = accounts.amountAt source
  received : accounts'.amountAt destination = accounts.amountAt destination + amount
  others : ∀ address, address ≠ source → address ≠ destination →
    accounts'.amountAt address = accounts.amountAt address

theorem TokenAccounts.Moved.delivered {accounts accounts' : TokenAccounts}
    {source destination mint sourceOwner destinationOwner : Pubkey} {amount : ℕ}
    (moved : accounts.Moved source destination amount mint sourceOwner destinationOwner accounts')
    (owners : sourceOwner ≠ destinationOwner) :
    accounts.Delivered source destination amount accounts' := by
  have apart : source ≠ destination := by
    rintro rfl
    exact owners (Prod.mk.inj
      (Option.some.inj (moved.sourceShape.symm.trans moved.destinationShape))).2
  refine ⟨?_, ?_, fun address notSource notDestination => ?_⟩
  · have change := moved.amountAt source
    rwa [if_pos rfl, if_neg apart, Nat.add_zero] at change
  · have change := moved.amountAt destination
    rwa [if_pos rfl, if_neg apart.symm, Nat.add_zero] at change
  · have change := moved.amountAt address
    rwa [if_neg notSource, if_neg notDestination] at change

/-- What an accepted buy does to every party, over all the roles the party has in it. -/
structure Buy.Settled (accounts : TradeAccounts) (world : World) (config : Config)
    (launch : TokenLaunch) (shares : ThreeWaySplit) (tokenAmountOut maxSolIn : UInt64)
    (world' : World) : Prop where
  split : config.FeeShares (config.tradeFee (launch.solToCurve tokenAmountOut.toNat)) shares
  slippage : launch.totalCost config tokenAmountOut.toNat ≤ maxSolIn.toNat
  lamports : ∀ holder, (world'.lamports holder : ℤ) = world.lamports holder + Balances.net
    ((accounts.trader, - (launch.totalCost config tokenAmountOut.toNat : ℤ)) ::
      (.vault accounts.mint, (launch.solToCurve tokenAmountOut.toNat : ℤ)) ::
      launch.feeRoles config shares) holder
  tokens : world.tokenAccounts.Delivered accounts.curveTokenAccount accounts.traderTokenAccount
    tokenAmountOut.toNat world'.tokenAccounts

/-- What an accepted sale does to every party, over all the roles the party has in it. -/
structure Sell.Settled (accounts : TradeAccounts) (world : World) (config : Config)
    (launch : TokenLaunch) (shares : ThreeWaySplit) (tokenAmountIn minSolOut : UInt64)
    (world' : World) : Prop where
  split : config.FeeShares (config.tradeFee (launch.grossSolOut tokenAmountIn.toNat)) shares
  slippage : minSolOut.toNat ≤ launch.netSolOut config tokenAmountIn.toNat
  lamports : ∀ holder, (world'.lamports holder : ℤ) = world.lamports holder + Balances.net
    ((.vault accounts.mint, - (launch.grossSolOut tokenAmountIn.toNat : ℤ)) ::
      (accounts.trader, (launch.netSolOut config tokenAmountIn.toNat : ℤ)) ::
      launch.feeRoles config shares) holder
  tokens : world.tokenAccounts.Delivered accounts.traderTokenAccount accounts.curveTokenAccount
    tokenAmountIn.toNat world'.tokenAccounts

theorem Buy.Execution.settled {accounts : TradeAccounts} {world world' : World}
    {tokenAmountOut maxSolIn : UInt64}
    (bought : Execution accounts world tokenAmountOut maxSolIn world')
    (valid : bought.config.Valid) :
    Buy.Settled accounts world bought.config bought.launch bought.shares tokenAmountOut maxSolIn
      world' := by
  obtain ⟨charge, fee, total⟩ := bought.terms_eq
  refine ⟨?_, total ▸ bought.slippage, fun holder => ?_, bought.tokens.delivered
    (Pubkey.ne_of_canSign bought.met.signer rfl).symm⟩
  · rw [← fee]
    exact valid.feeShares bought.creatorShare bought.dinoShare bought.sharesTotal
  · have paid := bought.lamports holder
    rw [Balances.net_cons, Balances.net_cons, bought.met.net_feeRoles, ← total, ← charge]
    split_ifs at paid ⊢ <;> omega

theorem Sell.Execution.settled {accounts : TradeAccounts} {world world' : World}
    {tokenAmountIn minSolOut : UInt64}
    (sold : Execution accounts world tokenAmountIn minSolOut world')
    (valid : sold.config.Valid) :
    Sell.Settled accounts world sold.config sold.launch sold.terms.shares tokenAmountIn minSolOut
      world' := by
  obtain ⟨payout, fee, net⟩ := sold.terms_eq
  refine ⟨?_, net ▸ sold.slippage, fun holder => ?_, sold.tokens.delivered
    (Pubkey.ne_of_canSign sold.met.signer rfl)⟩
  · rw [← fee]
    exact valid.feeShares sold.creatorShare sold.dinoShare sold.sharesTotal
  · have paid := sold.lamports holder
    rw [TradeAccounts.salePayments, World.receipts_cons] at paid
    rw [Balances.net_cons, Balances.net_cons, sold.met.net_feeRoles, ← net, ← payout]
    split_ifs at paid ⊢ <;> omega

namespace World

/-- Every accepted trade settles exactly, in every reachable state and however the wallets of its
roles coincide; and the treasury split that the remainder respects is never read. -/
theorem settlement_exact {world : World} (reachable : world.Reachable) :
    (∀ accounts tokenAmountOut maxSolIn world',
      Buy.handler accounts world tokenAmountOut maxSolIn = .ok world' →
      ∃ config launch shares, world.config = some config ∧
        world.launches (.launch accounts.mint) = some launch ∧
        Buy.Settled accounts world config launch shares tokenAmountOut maxSolIn world') ∧
    (∀ accounts tokenAmountIn minSolOut world',
      Sell.handler accounts world tokenAmountIn minSolOut = .ok world' →
      ∃ config launch shares, world.config = some config ∧
        world.launches (.launch accounts.mint) = some launch ∧
        Sell.Settled accounts world config launch shares tokenAmountIn minSolOut world') ∧
    ∀ amount creatorBps dinoBps treasuryBps otherBps,
      splitThreeWay amount creatorBps dinoBps treasuryBps =
        splitThreeWay amount creatorBps dinoBps otherBps := by
  have valid := reachable.wellFormed.config
  refine ⟨fun accounts tokenAmountOut maxSolIn world' accepted => ?_,
    fun accounts tokenAmountIn minSolOut world' accepted => ?_, fun _ _ _ _ _ => rfl⟩
  · obtain ⟨bought⟩ := Buy.execution accepted
    exact ⟨bought.config, bought.launch, bought.shares, bought.met.configPresent,
      bought.met.launchPresent, bought.settled (valid _ bought.met.configPresent)⟩
  · obtain ⟨sold⟩ := Sell.execution accepted
    exact ⟨sold.config, sold.launch, sold.terms.shares, sold.met.configPresent,
      sold.met.launchPresent, sold.settled (valid _ sold.met.configPresent)⟩

/-- The creator of a launch buys from it, in two roles. -/
theorem settlement_sample :
    let world := Sample.after Sample.params
      [.openTokenAccount (.associatedToken Sample.creator Sample.mint) Sample.mint Sample.creator]
    let accounts := Sample.trading Sample.creator
    let buy : Action := .buy accounts 100_000_000_000_000 5_000_000_000
    ∃ config launch shares, world.config = some config ∧
      world.launches (.launch Sample.mint) = some launch ∧
      Buy.Settled accounts world config launch shares 100_000_000_000_000 5_000_000_000
        (world.run [buy]) := by
  intro world accounts buy
  have accepted : (world.execute buy).isOk := by decide +kernel
  have reachable : world.Reachable := Sample.reachable_after _ _
  have executed : world.execute buy = .ok (world.run [buy]) := execute_run accepted
  exact (settlement_exact reachable).1 accounts _ _ _ executed

end World

/-! ### A sale after a buy -/

/-- Selling what was just bought pays what the buy charged: the cap does not bind. -/
theorem TokenLaunch.Bought.grossSolOut_eq {launch launch' : TokenLaunch} {tokens charge : ℕ}
    (bought : launch.Bought tokens charge launch') : launch'.grossSolOut tokens = charge := by
  have back : proceeds launch'.x launch'.y tokens = charge := by
    rw [bought.x_eq, Nat.eq_sub_of_add_eq bought.virtualTokens, bought.quoted]
    exact proceeds_cost bought.room
  rw [grossSolOut, cappedProceeds, back, bought.realSol]
  exact Nat.min_eq_left (Nat.le_add_left _ _)

/-- It also restores the launch. -/
theorem TokenLaunch.Bought.undone {launch launch' launch'' : TokenLaunch} {tokens charge payout : ℕ}
    (bought : launch.Bought tokens charge launch') (sold : launch'.Sold tokens payout launch'') :
    launch'' = launch := by
  have same : payout = charge := sold.quoted.trans bought.grossSolOut_eq
  have realSol : launch''.realSolReserves = launch.realSolReserves := by
    rw [← UInt64.toNat_inj]
    have first := sold.realSol
    rw [bought.realSol, same] at first
    exact Nat.add_right_cancel first
  have realTokens : launch''.realTokenReserves = launch.realTokenReserves := by
    rw [← UInt64.toNat_inj, sold.realTokens, bought.realTokens]
  have virtualTokens : launch''.virtualTokenReserves = launch.virtualTokenReserves := by
    rw [← UInt64.toNat_inj]
    exact sold.virtualTokens.trans bought.virtualTokens
  have tokensSold : launch''.tokensSold = launch.tokensSold := by
    rw [← UInt64.toNat_inj, sold.tokensSold, bought.tokensSold, Nat.add_sub_cancel]
  rw [sold.frame, realSol, realTokens, virtualTokens, tokensSold, bought.frame]

/-- The accounts of an accepted buy meet the constraints of a sale right after it. -/
theorem Buy.Execution.met_after {accounts : TradeAccounts} {world world' : World}
    {tokenAmountOut maxSolIn : UInt64}
    (bought : Execution accounts world tokenAmountOut maxSolIn world') :
    accounts.Met world' bought.config bought.launch' := by
  have met := bought.met
  exact { met with
    configPresent := (congrArg World.config bought.frame).trans met.configPresent
    launchPresent := bought.launch_after
    hasOne := by rw [bought.bought.frame, met.hasOne]
    mintPresent := by rw [bought.frame]; exact met.mintPresent
    curveTokenAccount := (bought.tokens.shape _).trans met.curveTokenAccount
    traderTokenAccount := (bought.tokens.shape _).trans met.traderTokenAccount
    creatorWallet := by rw [bought.bought.frame, met.creatorWallet] }

namespace World

/-- The holder of what a buy delivered can sell it right away. -/
theorem Reachable.sell_after_buy {world world' : World} (reachable : world.Reachable)
    {accounts : TradeAccounts} {tokenAmountOut maxSolIn : UInt64}
    (accepted : Buy.handler accounts world tokenAmountOut maxSolIn = .ok world') :
    ∃ world'', Sell.handler accounts world' tokenAmountOut 0 = .ok world'' := by
  obtain ⟨bought⟩ := Buy.execution accepted
  have after : world'.Reachable :=
    reachable.step (show world.execute (.buy accounts tokenAmountOut maxSolIn) = _ from accepted)
  refine (after.sell_accepted_iff bought.met_after).mpr
    ⟨bought.notPaused, ?_, bought.bought.positive, Nat.zero_le _, ?_⟩
  · rw [bought.bought.frame, bought.bought.trading]
  · rw [(bought.tokens.delivered (Pubkey.ne_of_canSign bought.met.signer rfl).symm).received]
    exact Nat.le_add_left _ _

/-- The vault of a launch gets no share of a fee where no configured wallet is the vault. -/
theorem WellFormed.receipts_vault {world : World} (wellFormed : world.WellFormed)
    {accounts : TradeAccounts} {config : Config} {launch : TokenLaunch}
    (met : accounts.Met world config launch) {mint : Pubkey}
    (dino : config.dinoBuybackWallet ≠ .vault mint) (treasury : config.treasuryWallet ≠ .vault mint)
    (shares : ThreeWaySplit) : receipts (accounts.feePayments shares) (.vault mint) = 0 := by
  refine accounts.receipts_outsider ?_ ?_ ?_
  · rw [met.creatorWallet]
    exact (Pubkey.ne_of_canSign (wellFormed.creator _ _ met.launchPresent) rfl).symm
  · rw [met.dinoBuybackWallet]
    exact dino.symm
  · rw [met.treasuryWallet]
    exact treasury.symm

/-- A sale right after a buy of the same amount is open to the buyer, pays what the buy charged,
restores the launch and the vault, and leaves a trader who is no fee recipient poorer by the two
fees, which are equal. -/
theorem sell_undoes_buy {world world' : World} (reachable : world.Reachable)
    {accounts : TradeAccounts} {tokenAmountOut maxSolIn : UInt64}
    (accepted : Buy.handler accounts world tokenAmountOut maxSolIn = .ok world') :
    ∃ config launch launch', world.config = some config ∧
      world.launches (.launch accounts.mint) = some launch ∧
      world'.launches (.launch accounts.mint) = some launch' ∧
      (∃ world'', Sell.handler accounts world' tokenAmountOut 0 = .ok world'') ∧
      launch'.grossSolOut tokenAmountOut.toNat = launch.solToCurve tokenAmountOut.toNat ∧
      ∀ sale minSolOut world'', TradeAccounts.mint sale = accounts.mint →
        Sell.handler sale world' tokenAmountOut minSolOut = .ok world'' →
        world''.launches (.launch accounts.mint) = some launch ∧
        (config.dinoBuybackWallet ≠ .vault accounts.mint →
          config.treasuryWallet ≠ .vault accounts.mint →
          world''.lamports (.vault accounts.mint) + launch.solToCurve tokenAmountOut.toNat =
              world'.lamports (.vault accounts.mint) ∧
            world''.lamports (.vault accounts.mint) = world.lamports (.vault accounts.mint)) ∧
        (sale.trader = accounts.trader → accounts.trader ≠ launch.creator →
          accounts.trader ≠ config.dinoBuybackWallet → accounts.trader ≠ config.treasuryWallet →
          world''.lamports accounts.trader +
              2 * config.tradeFee (launch.solToCurve tokenAmountOut.toNat) =
            world.lamports accounts.trader) := by
  obtain ⟨bought⟩ := Buy.execution accepted
  obtain ⟨charge, fee, _⟩ := bought.terms_eq
  have again := bought.met_after
  have back := bought.bought.grossSolOut_eq
  have wellFormed := reachable.wellFormed
  have after : world'.Reachable :=
    reachable.step (show world.execute (.buy accounts tokenAmountOut maxSolIn) = _ from accepted)
  refine ⟨bought.config, bought.launch, bought.launch', bought.met.configPresent,
    bought.met.launchPresent, again.launchPresent, reachable.sell_after_buy accepted,
    back.trans charge, ?_⟩
  intro sale minSolOut world'' same sell
  obtain ⟨sold⟩ := Sell.execution sell
  obtain ⟨payout, saleFee, _⟩ := sold.terms_eq
  have met := sold.met
  have sameConfig : bought.config = sold.config :=
    Option.some.inj (again.configPresent.symm.trans met.configPresent)
  have sameLaunch : bought.launch' = sold.launch := by
    have found := met.launchPresent
    rw [same] at found
    exact Option.some.inj (again.launchPresent.symm.trans found)
  rw [← sameConfig, ← sameLaunch, back, charge] at saleFee
  rw [← sameLaunch, back] at payout
  refine ⟨?_, fun dino treasury => ?_, fun trader notCreator notDino notTreasury => ?_⟩
  · have restored := bought.bought.undone (sameLaunch ▸ sold.sold)
    rw [← same, sold.launch_after, restored]
  · have before := bought.vault_lamports
      (wellFormed.receipts_vault bought.met dino treasury bought.shares)
    have paid := sold.vault_lamports (after.wellFormed.receipts_vault met
      (sameConfig ▸ same ▸ dino) (sameConfig ▸ same ▸ treasury) sold.terms.shares)
    rw [same, payout] at paid
    rw [← charge]
    omega
  · have paid := bought.trader_lamports (accounts.receipts_outsider
      (bought.met.creatorWallet ▸ notCreator) (bought.met.dinoBuybackWallet ▸ notDino)
      (bought.met.treasuryWallet ▸ notTreasury))
    have received := sold.trader_lamports (sale.receipts_outsider ?_ ?_ ?_)
    · have net := sold.net
      rw [trader] at received
      omega
    · rw [trader, met.creatorWallet, ← sameLaunch, bought.bought.frame]
      exact notCreator
    · rw [trader, met.dinoBuybackWallet, ← sameConfig]
      exact notDino
    · rw [trader, met.treasuryWallet, ← sameConfig]
      exact notTreasury

/-- A buy of an eighth of the allocation and its sale leave the launch as it was created. -/
theorem sell_undoes_sample :
    let world := Sample.after Sample.params []
    let buy : Action := .buy (Sample.trading Sample.whale) 100_000_000_000_000 5_000_000_000
    ∃ launch world'', Sell.handler (Sample.trading Sample.whale) (world.run [buy])
        100_000_000_000_000 0 = .ok world'' ∧
      world.launches (.launch Sample.mint) = some launch ∧
      world''.launches (.launch Sample.mint) = some launch := by
  intro world buy
  have accepted : (world.execute buy).isOk := by decide +kernel
  have executed : world.execute buy = .ok (world.run [buy]) := execute_run accepted
  have reachable : world.Reachable := Sample.reachable_after _ _
  obtain ⟨_, launch, _, _, present, _, ⟨world'', sold⟩, _, undone⟩ :=
    sell_undoes_buy reachable (show Buy.handler _ world _ _ = _ from executed)
  exact ⟨launch, world'', sold, present, (undone _ _ _ rfl sold).1⟩

end World

end Memecoin
