/-
This file asks whether a trader can leave the curve with more than was brought.
Follow one trader's lamports, tokens and fees along a sequence of trades: the
lamports and the curve's SOL together lose exactly the fees, the tokens and the
curve's tokens together stay, and the product of the reserves never falls by
more than the fees make up for, as long as every sale rounds nothing in the
seller's favour or is large enough for its fee to cover the rounding. Small
uneven sales pay the rounding out to the seller, and their fee floors to zero.
-/

import Memecoin.Rounding

namespace Memecoin

open Checked ConstantProduct

namespace TokenLaunch

/-- The token reserve of a launch that has sold its whole allocation. -/
def leastReserve : ℕ := virtualTokenUnits.toNat - curveAllocationUnits.toNat

/-- The sales whose exact curve price `x * d / (y + d)` carries a trade fee of three lamports. The
starting reserve is less than three times the least reserve. -/
def LargeSale (launch : TokenLaunch) (tokens : ℕ) (tradeFeeBps : UInt16) : Prop :=
  30_000 * (launch.y + tokens) ≤ launch.x * tokens * tradeFeeBps.toNat

variable {launch launch' : TokenLaunch} {tokens payout : ℕ}

/-- A large sale that the recorded SOL does not cap pays a fee of at least three lamports. -/
theorem Sold.three_le_fee (sold : launch.Sold tokens payout launch') {tradeFeeBps : UInt16}
    (large : launch.LargeSale tokens tradeFeeBps) (uneven : ¬ launch.EvenSale tokens) :
    3 ≤ payout * tradeFeeBps.toNat / 10_000 := by
  have uncapped : payout = proceeds launch.x launch.y tokens := by
    rw [sold.quoted]
    refine cappedProceeds_of_lt _ _ _ _ ?_
    rw [x_sub_realSol]
    exact Nat.lt_of_not_le fun capped => uneven (.inr capped)
  have positive : 0 < launch.y + tokens := Nat.add_pos_right _ sold.positive
  have price := mul_le_proceeds launch.x launch.y tokens
  rw [← uncapped] at price
  rw [Nat.le_div_iff_mul_le (by decide)]
  refine Nat.le_of_mul_le_mul_right ?_ positive
  calc 3 * 10_000 * (launch.y + tokens) ≤ launch.x * tokens * tradeFeeBps.toNat := large
    _ ≤ payout * (launch.y + tokens) * tradeFeeBps.toNat := Nat.mul_le_mul_right _ price
    _ = payout * tradeFeeBps.toNat * (launch.y + tokens) := Nat.mul_right_comm _ _ _

end TokenLaunch

/-- The action is a trade of one trader with one launch. -/
def Action.TradesAs (mint trader : Pubkey) : Action → Prop
  | .buy accounts _ _ => accounts.mint = mint ∧ accounts.trader = trader
  | .sell accounts _ _ => accounts.mint = mint ∧ accounts.trader = trader
  | _ => False

namespace World

/-- If the action is an accepted sale to the launch, it rounds nothing in the seller's favour or
is large enough for its fee to cover the rounding. -/
def SellsFairly (mint : Pubkey) (world : World) (action : Action) : Prop :=
  ∀ config launch tokens there, (world.execute action).isOk → world.config = some config →
    world.operation mint action = .sell tokens there →
    world.launches (.launch mint) = some launch →
    launch.EvenSale tokens ∨ launch.LargeSale tokens config.tradeFeeBps

/-! ### The trader and the curve together -/

/-- What a trader and the curve have between them, against the state in which the trades began,
after fees of the given amount. -/
structure Tracks (start : World) (mint trader : Pubkey) (first : TokenLaunch) (world : World)
    (launch : TokenLaunch) (fees : ℕ) : Prop where
  lamports : world.lamports trader + launch.x + fees = start.lamports trader + first.x
  tokens : world.holderTokens mint trader + launch.y = start.holderTokens mint trader + first.y
  product : first.k ≤ launch.k + fees * TokenLaunch.leastReserve

variable {start world world' : World} {first : TokenLaunch} {accounts : TradeAccounts} {fees : ℕ}

/-- A buy moves the charge to the curve and the fee out, and never lowers the product. -/
theorem Tracks.buy {tokenAmountOut maxSolIn : UInt64}
    (bought : Buy.Execution accounts world tokenAmountOut maxSolIn world')
    (outsider : receipts (accounts.feePayments bought.shares) accounts.trader = 0)
    (tracks : Tracks start accounts.mint accounts.trader first world bought.launch fees) :
    Tracks start accounts.mint accounts.trader first world' bought.launch'
      (fees + bought.terms.fee.toNat) where
  lamports := by
    have paid := bought.trader_lamports outsider
    have before := tracks.lamports
    have grown := bought.bought.x_eq
    omega
  tokens := by
    have moved := bought.tokens.held accounts.mint fun owner => owner = accounts.trader
    rw [if_neg, if_pos ⟨rfl, decide_eq_true rfl⟩, Nat.add_zero] at moved
    · have before := tracks.tokens
      have shrunk := bought.bought.virtualTokens
      simp only [holderTokens] at before ⊢
      omega
    · exact fun both => Pubkey.ne_of_canSign bought.met.signer rfl (of_decide_eq_true both.2).symm
  product := tracks.product.trans (Nat.add_le_add bought.bought.k_le
    (Nat.mul_le_mul_right _ (Nat.le_add_right _ _)))

/-- A sale moves the payout to the trader and the fee out; what it takes off the product is
nothing, or within the fee. -/
theorem Tracks.sell {tokenAmountIn minSolOut : UInt64}
    (sold : Sell.Execution accounts world tokenAmountIn minSolOut world')
    (outsider : receipts (accounts.feePayments sold.terms.shares) accounts.trader = 0)
    (fair : sold.launch.EvenSale tokenAmountIn.toNat ∨
      sold.launch.LargeSale tokenAmountIn.toNat sold.config.tradeFeeBps)
    (small : sold.launch'.y ≤ TokenLaunch.virtualTokenUnits.toNat)
    (tracks : Tracks start accounts.mint accounts.trader first world sold.launch fees) :
    Tracks start accounts.mint accounts.trader first world' sold.launch'
      (fees + sold.terms.fee.toNat) where
  lamports := by
    have paid := sold.trader_lamports outsider
    have before := tracks.lamports
    have net := sold.net
    have shrunk := sold.sold.x_eq
    have covered := sold.sold.realSol
    have reserve : sold.launch.realSolReserves.toNat ≤ sold.launch.x := Nat.le_add_left _ _
    omega
  tokens := by
    have moved := sold.tokens.held accounts.mint fun owner => owner = accounts.trader
    rw [if_pos ⟨rfl, decide_eq_true rfl⟩, if_neg, Nat.add_zero] at moved
    · have before := tracks.tokens
      have grown := sold.sold.virtualTokens
      simp only [holderTokens] at before ⊢
      omega
    · exact fun both => Pubkey.ne_of_canSign sold.met.signer rfl (of_decide_eq_true both.2).symm
  product := by
    have before := tracks.product
    rw [Nat.add_mul]
    by_cases even : sold.launch.EvenSale tokenAmountIn.toNat
    · have kept := sold.sold.k_le_iff.mpr even
      omega
    · have fee := sold.sold.three_le_fee (fair.resolve_left even) even
      rw [← sold.fee] at fee
      have cover : sold.launch'.y ≤ sold.terms.fee.toNat * TokenLaunch.leastReserve :=
        calc sold.launch'.y ≤ TokenLaunch.virtualTokenUnits.toNat := small
          _ ≤ 3 * TokenLaunch.leastReserve := by decide
          _ ≤ sold.terms.fee.toNat * TokenLaunch.leastReserve := Nat.mul_le_mul_right _ fee
      have fall := sold.sold.k_lt
      omega

theorem leastReserve_le {market : Market} {launch : TokenLaunch} (books : market.Trading launch) :
    TokenLaunch.leastReserve ≤ launch.y := by
  have offset := books.offset
  rw [TokenLaunch.leastReserve]
  omega

/-- A trader with as many tokens as at the start, across a curve that has the same tokens again,
has gained no lamports: the product of the curve cannot have fallen by more than the fees. -/
theorem Tracks.lamports_le {mint trader : Pubkey} {launch : TokenLaunch}
    (tracks : Tracks start mint trader first world launch fees)
    (least : TokenLaunch.leastReserve ≤ first.y)
    (same : world.holderTokens mint trader = start.holderTokens mint trader) :
    world.lamports trader ≤ start.lamports trader := by
  have back : launch.y = first.y := by
    have tokens := tracks.tokens
    omega
  have product : first.x * first.y ≤ (launch.x + fees) * first.y :=
    calc first.x * first.y ≤ launch.x * launch.y + fees * TokenLaunch.leastReserve :=
          tracks.product
      _ ≤ launch.x * first.y + fees * first.y := by
          rw [back]
          exact Nat.add_le_add_left (Nat.mul_le_mul_left _ least) _
      _ = (launch.x + fees) * first.y := (Nat.add_mul _ _ _).symm
  have positive : 0 < first.y := lt_of_lt_of_le (by decide) least
  have kept := Nat.le_of_mul_le_mul_right product positive
  have lamports := tracks.lamports
  omega

/-! ### Sequences of trades -/

/-- What holds between the trades: the configuration and the creator are those of the start, and
the trader and the curve are tracked. -/
def Tracked (start : World) (mint trader : Pubkey) (config : Config) (first : TokenLaunch)
    (world : World) : Prop :=
  world.config = some config ∧ ∃ launch fees, world.launches (.launch mint) = some launch ∧
    launch.creator = first.creator ∧ Tracks start mint trader first world launch fees

variable {config : Config}

theorem Tracked.buy {tokenAmountOut maxSolIn : UInt64}
    (tracked : Tracked start accounts.mint accounts.trader config first world)
    (notCreator : accounts.trader ≠ first.creator)
    (notDino : accounts.trader ≠ config.dinoBuybackWallet)
    (notTreasury : accounts.trader ≠ config.treasuryWallet)
    (accepted : Buy.handler accounts world tokenAmountOut maxSolIn = .ok world') :
    Tracked start accounts.mint accounts.trader config first world' := by
  obtain ⟨sameConfig, before, fees, found, creator, tracks⟩ := tracked
  obtain ⟨bought⟩ := Buy.execution accepted
  have met := bought.met
  obtain rfl : before = bought.launch := Option.some.inj (found.symm.trans met.launchPresent)
  obtain rfl : config = bought.config := Option.some.inj (sameConfig.symm.trans met.configPresent)
  refine ⟨?_, bought.launch', _, ?_, ?_, tracks.buy bought (accounts.receipts_outsider ?_ ?_ ?_)⟩
  · exact (congrArg World.config bought.frame).trans sameConfig
  · exact bought.launch_after
  · rw [bought.bought.frame, creator]
  · rwa [met.creatorWallet, creator]
  · rwa [met.dinoBuybackWallet]
  · rwa [met.treasuryWallet]

theorem Tracked.sell {tokenAmountIn minSolOut : UInt64} (reachable : world.Reachable)
    (tracked : Tracked start accounts.mint accounts.trader config first world)
    (notCreator : accounts.trader ≠ first.creator)
    (notDino : accounts.trader ≠ config.dinoBuybackWallet)
    (notTreasury : accounts.trader ≠ config.treasuryWallet)
    (fair : world.SellsFairly accounts.mint (.sell accounts tokenAmountIn minSolOut))
    (accepted : world.execute (.sell accounts tokenAmountIn minSolOut) = .ok world') :
    Tracked start accounts.mint accounts.trader config first world' := by
  obtain ⟨sameConfig, before, fees, found, creator, tracks⟩ := tracked
  obtain ⟨sold⟩ := Sell.execution accepted
  have met := sold.met
  obtain rfl : before = sold.launch := Option.some.inj (found.symm.trans met.launchPresent)
  obtain rfl : config = sold.config := Option.some.inj (sameConfig.symm.trans met.configPresent)
  have after : world'.launches (.launch accounts.mint) = some sold.launch' := by
    exact sold.launch_after
  have still : sold.launch'.graduated = false := by rw [sold.sold.frame, sold.sold.trading]
  have live := ((reachable.step accepted).sound accounts.mint).live sold.launch' after
  have sale : world.operation accounts.mint (.sell accounts tokenAmountIn minSolOut) =
      .sell tokenAmountIn.toNat (accounts.curveTokenAccount = .curveAccount accounts.mint) :=
    if_pos rfl
  have fairSale := fair sold.config sold.launch _ _ (by rw [accepted]; rfl) sameConfig sale found
  refine ⟨?_, sold.launch', _, after, ?_, tracks.sell sold (accounts.receipts_outsider ?_ ?_ ?_) fairSale
    (live.trading still).y_le⟩
  · exact (congrArg World.config sold.frame).trans sameConfig
  · rw [sold.sold.frame, creator]
  · rwa [met.creatorWallet, creator]
  · rwa [met.dinoBuybackWallet]
  · rwa [met.treasuryWallet]

/-! ### Main result -/

/-- A trader who is no fee recipient and trades with a launch, alone, until the tokens are as many
as at the start, has no more lamports than at the start: whatever the order and the sizes of the
trades, as long as every accepted sale rounds nothing in the seller's favour or is large enough for
its fee to cover the rounding. -/
theorem no_free_money {world : World} (reachable : world.Reachable) {mint trader : Pubkey}
    {config : Config} (configured : world.config = some config) {launch : TokenLaunch}
    (present : world.launches (.launch mint) = some launch) (trading : launch.graduated = false)
    (notCreator : trader ≠ launch.creator) (notDino : trader ≠ config.dinoBuybackWallet)
    (notTreasury : trader ≠ config.treasuryWallet) (actions : List Action)
    (trades : world.Along (fun _ action => action.TradesAs mint trader) actions)
    (fair : world.Along (SellsFairly mint) actions)
    (same : (world.run actions).holderTokens mint trader = world.holderTokens mint trader) :
    (world.run actions).lamports trader ≤ world.lamports trader := by
  have final := reachable.run_invariant
    (fun world action => action.TradesAs mint trader ∧ world.SellsFairly mint action)
    (Tracked world mint trader config launch) ?_
    ⟨configured, launch, 0, present, rfl, rfl, rfl, Nat.le_add_right _ _⟩ actions
    (along_and trades fair)
  · obtain ⟨_, launch', fees, _, _, tracks⟩ := final
    have books := ((reachable.sound mint).live launch present).trading trading
    exact tracks.lamports_le (leastReserve_le books) same
  · rintro state action state' reached ⟨trade, honest⟩ tracked accepted
    cases action with
    | buy accounts tokenAmountOut maxSolIn =>
      obtain ⟨rfl, rfl⟩ := trade
      exact tracked.buy notCreator notDino notTreasury accepted
    | sell accounts tokenAmountIn minSolOut =>
      obtain ⟨rfl, rfl⟩ := trade
      exact tracked.sell reached notCreator notDino notTreasury honest accepted
    | _ => exact trade.elim

/-- The state in which the sample trader starts: somebody else has bought before. -/
def roundTripStart : World :=
  Sample.after Sample.params [.buy (Sample.trading Sample.whale) 100_000_000_000_000 5_000_000_000]

/-- A trader buys a million tokens and sells them again. -/
theorem no_free_money_sample :
    (roundTripStart.run [.buy (Sample.trading Sample.trader) 1_000_000_000_000 100_000_000,
        .sell (Sample.trading Sample.trader) 1_000_000_000_000 0]).lamports Sample.trader ≤
      roundTripStart.lamports Sample.trader := by
  let purchase : Action := .buy (Sample.trading Sample.trader) 1_000_000_000_000 100_000_000
  have configured : roundTripStart.config = some (Sample.params.toConfig Sample.admin 255) := by
    decide +kernel
  have found : (roundTripStart.launches (.launch Sample.mint)).map
      (fun launch => (launch.graduated, launch.creator)) = some (false, Sample.creator) := by
    decide +kernel
  obtain ⟨launch, present, fields⟩ := Option.map_eq_some_iff.mp found
  obtain ⟨trading, creator⟩ := Prod.mk.inj fields
  refine no_free_money (Sample.reachable_after _ _) configured present trading
    (creator ▸ by decide) (by decide) (by decide) _ ⟨⟨rfl, rfl⟩, ⟨rfl, rfl⟩, trivial⟩
    ⟨fun _ _ _ _ _ _ buy => (nomatch buy), ?_, trivial⟩ (by decide +kernel)
  -- the sale is large: its price of about 0.03 SOL carries a fee of far more than three lamports
  intro config between tokens there _ configuredThen sale presentThen
  obtain ⟨rfl, _⟩ := Operation.sell.inj sale
  have fee : (roundTripStart.run [purchase]).config.map Config.tradeFeeBps = some 100 := by
    decide +kernel
  have reserves : ((roundTripStart.run [purchase]).launches (.launch Sample.mint)).map
      (fun launch => (launch.x, launch.y)) = some (32_668_748_500, 1_135_363_636_000_000) := by
    decide +kernel
  rw [show (roundTripStart.run [purchase]).config = some config from configuredThen,
    Option.map_some, Option.some.injEq] at fee
  rw [show (roundTripStart.run [purchase]).launches (.launch Sample.mint) = some between from
    presentThen, Option.map_some, Option.some.injEq, Prod.mk.injEq] at reserves
  rw [TokenLaunch.LargeSale, reserves.1, reserves.2, fee]
  exact .inr (by decide)

/-- Where somebody else has bought, buying two base units costs one lamport and selling them one by
one returns two, free of fees. -/
theorem small_sales_pay : ¬ ∀ world mint trader config launch actions, World.Reachable world →
    world.config = some config → 0 < config.tradeFeeBps.toNat →
    world.launches (.launch mint) = some launch → launch.graduated = false →
    trader ≠ launch.creator → trader ≠ config.dinoBuybackWallet →
    trader ≠ config.treasuryWallet →
    world.Along (fun world action => action.TradesAs mint trader ∧ (world.execute action).isOk)
      actions →
    (world.run actions).holderTokens mint trader = world.holderTokens mint trader →
    (world.run actions).lamports trader ≤ world.lamports trader := by
  intro bounded
  let actions : List Action := [.buy (Sample.trading Sample.trader) 2 10,
    .sell (Sample.trading Sample.trader) 1 0, .sell (Sample.trading Sample.trader) 1 0]
  have configured : roundTripStart.config = some (Sample.params.toConfig Sample.admin 255) := by
    decide +kernel
  have found : (roundTripStart.launches (.launch Sample.mint)).map
      (fun launch => (launch.graduated, launch.creator)) = some (false, Sample.creator) := by
    decide +kernel
  obtain ⟨launch, present, fields⟩ := Option.map_eq_some_iff.mp found
  obtain ⟨trading, creator⟩ := Prod.mk.inj fields
  have before : roundTripStart.lamports Sample.trader = 100_000_000_000 := by decide +kernel
  have after : (roundTripStart.run actions).lamports Sample.trader = 100_000_000_001 := by
    decide +kernel
  have kept := bounded roundTripStart Sample.mint Sample.trader _ launch actions
    (Sample.reachable_after _ _) configured (by decide) present trading (creator ▸ by decide)
    (by decide) (by decide) ⟨⟨⟨rfl, rfl⟩, by decide +kernel⟩, ⟨⟨rfl, rfl⟩, by decide +kernel⟩,
      ⟨⟨rfl, rfl⟩, by decide +kernel⟩, trivial⟩ (by decide +kernel)
  rw [before, after] at kept
  exact absurd kept (by decide)

end World

end Memecoin
