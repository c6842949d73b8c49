/-
This file is about the prices a launch quotes over its life. Trades move them in
one direction: a buy makes the launch dearer, a sale cheaper, and nothing makes
it cheaper than a new one. One buy can bring the recorded SOL to any target that
the unsold tokens are worth. Splitting a buy into parts never pays, and costs
less than three lamports for each part.
-/

import Memecoin.Rounding
import Memecoin.Acceptance

namespace Memecoin

open Checked ConstantProduct

/-! ### Dearer launches -/

namespace TokenLaunch

/-- The curve of the second launch has more of the first asset, more of it recorded, and less of
the second asset. -/
structure Dearer (launch launch' : TokenLaunch) : Prop where
  x : launch.x ≤ launch'.x
  y : launch'.y ≤ launch.y
  realSol : launch.realSolReserves.toNat ≤ launch'.realSolReserves.toNat

variable {launch launch' : TokenLaunch} {tokens charge payout : ℕ}

theorem Dearer.solToCurve_le (dearer : launch.Dearer launch') (room : tokens < launch'.y) :
    launch.solToCurve tokens ≤ launch'.solToCurve tokens :=
  cost_mono dearer.x dearer.y room

theorem Dearer.grossSolOut_le (dearer : launch.Dearer launch') (positive : 0 < tokens) :
    launch.grossSolOut tokens ≤ launch'.grossSolOut tokens :=
  cappedProceeds_mono dearer.x dearer.y positive dearer.realSol

/-- A dearer launch quotes no less, for buys and for sales. -/
theorem Dearer.buyQuote_le (dearer : launch.Dearer launch') {amount quote quote' : UInt64}
    (first : launch.buyQuote amount = .ok quote) (second : launch'.buyQuote amount = .ok quote') :
    quote ≤ quote' := by
  obtain ⟨_, _, _, _, value⟩ := buyQuote_eq_ok.mp first
  obtain ⟨_, _, room, _, value'⟩ := buyQuote_eq_ok.mp second
  rw [UInt64.le_iff_toNat_le, value, value']
  exact dearer.solToCurve_le room

theorem Dearer.sellQuote_le (dearer : launch.Dearer launch') {amount quote quote' : UInt64}
    (first : launch.sellQuote amount = .ok quote) (second : launch'.sellQuote amount = .ok quote') :
    quote ≤ quote' := by
  obtain ⟨positive, _, _, value⟩ := sellQuote_eq_ok.mp first
  obtain ⟨_, _, _, value'⟩ := sellQuote_eq_ok.mp second
  rw [UInt64.le_iff_toNat_le, value, value']
  exact dearer.grossSolOut_le positive

theorem Bought.dearer (bought : launch.Bought tokens charge launch') : launch.Dearer launch' where
  x := bought.x_eq ▸ Nat.le_add_right _ _
  y := bought.y_eq ▸ Nat.sub_le _ _
  realSol := bought.realSol ▸ Nat.le_add_right _ _

theorem Sold.cheaper (sold : launch.Sold tokens payout launch') : launch'.Dearer launch where
  x := sold.x_eq ▸ Nat.sub_le _ _
  y := sold.virtualTokens ▸ Nat.le_add_right _ _
  realSol := sold.realSol ▸ Nat.le_add_right _ _

/-- A launch pays no more for an amount than it charges for it. -/
theorem sellQuote_le_buyQuote {amount charged paid : UInt64}
    (buys : launch.buyQuote amount = .ok charged) (sells : launch.sellQuote amount = .ok paid) :
    paid ≤ charged := by
  obtain ⟨_, _, room, _, charge⟩ := buyQuote_eq_ok.mp buys
  obtain ⟨_, _, _, payout⟩ := sellQuote_eq_ok.mp sells
  rw [UInt64.le_iff_toNat_le, charge, payout]
  exact (Nat.min_le_left _ _).trans (proceeds_le_cost room)

end TokenLaunch

/-- A new launch quotes what a dearer launch with no more to sell quotes, and for no more. -/
theorem TokenLaunch.Created.buyQuote_le {first launch : TokenLaunch} (created : first.Created)
    (dearer : first.Dearer launch)
    (fewer : launch.realTokenReserves.toNat ≤ first.realTokenReserves.toNat)
    {amount charged : UInt64} (buys : launch.buyQuote amount = .ok charged) :
    ∃ fresh, first.buyQuote amount = .ok fresh ∧ fresh ≤ charged := by
  obtain ⟨positive, available, room, _, charge⟩ := buyQuote_eq_ok.mp buys
  have less : first.solToCurve amount.toNat ≤ charged.toNat :=
    charge ▸ dearer.solToCurve_le room
  obtain ⟨fresh, value⟩ := exists_toNat_eq (lt_of_le_of_lt less charged.toNat_lt)
  have word : first.y < 2 ^ 64 := first.virtualTokenReserves.toNat_lt
  have product : startingProduct + 2 ^ 64 ≤ 2 ^ 128 := by decide
  refine ⟨fresh, buyQuote_eq_ok.mpr ⟨positive, available.trans fewer, room.trans_le dearer.y, ?_,
    value⟩, ?_⟩
  · rw [created.k_eq]
    omega
  · rwa [UInt64.le_iff_toNat_le, value]

/-- Nothing is cheaper than a new launch. -/
theorem Market.Live.dearer {market : Market} {launch first : TokenLaunch}
    (live : market.Live launch) (books : market.Trading launch) (created : first.Created) :
    first.Dearer launch := by
  obtain ⟨accounts, bumps, createdAt, rfl⟩ := created
  refine ⟨?_, books.y_le, Nat.zero_le _⟩
  rw [TokenLaunch.x, TokenLaunch.x, live.virtualSol]
  exact Nat.add_le_add_left (Nat.zero_le _) _

namespace Market

/-- A graduated launch has nothing left to sell. -/
def Emptied (market : Market) : Prop :=
  ∀ launch, market.launch = some launch → launch.graduated = true →
    launch.realTokenReserves.toNat = 0

theorem Step.emptied {fed : Prop} {market market' : Market} {operation : Operation}
    (step : Step fed market operation market') (emptied : market.Emptied) : market'.Emptied := by
  intro launch present graduated
  cases step with
  | create launch' wallets _ absent created =>
    obtain rfl := Option.some.inj present
    obtain ⟨accounts, bumps, createdAt, rfl⟩ := created
    cases graduated
  | buy before launch' tokens cost wallets there _ found bought held heldThere =>
    obtain rfl := Option.some.inj present
    rw [bought.frame] at graduated
    cases bought.trading.symm.trans graduated
  | sell before launch' tokens payout wallets there _ found sold held covered =>
    obtain rfl := Option.some.inj present
    rw [sold.frame] at graduated
    cases sold.trading.symm.trans graduated
  | graduate before remaining fee wallets toLaunch _ found trading split covered =>
    obtain rfl := Option.some.inj present
    rfl
  | sealPool before meteoraLbPair found already unseeded nonzero =>
    obtain rfl := Option.some.inj present
    exact emptied before found already
  | pass | giveLamports | giveTokens | burn => exact emptied launch present graduated

end Market

namespace World

variable {world : World} {mint : Pubkey} {launch : TokenLaunch}

theorem Reachable.emptied (reachable : world.Reachable) (mint : Pubkey) :
    (world.market mint).Emptied :=
  (reachable.invariant (fun world => world.WellFormed ∧ (world.market mint).Emptied)
    (fun unixTimestamp funds => ⟨genesis_wellFormed unixTimestamp funds, fun _ absent => nomatch absent⟩)
    fun _ _ _ kept accepted =>
      ⟨kept.1.execute accepted, (kept.1.refines accepted mint).emptied kept.2⟩).2

/-- Only a launch that trades quotes a buy. -/
theorem Reachable.trading_of_buyQuote (reachable : world.Reachable)
    (present : world.launches (.launch mint) = some launch) {amount charged : UInt64}
    (buys : launch.buyQuote amount = .ok charged) : launch.graduated = false := by
  obtain ⟨positive, available, _⟩ := TokenLaunch.buyQuote_eq_ok.mp buys
  cases phase : launch.graduated with
  | false => rfl
  | true =>
    have empty := reachable.emptied mint launch present phase
    omega

/-! ### Which way trades move prices -/

/-- Accepted buys never lower and accepted sales never raise a quote, for any amount quoted before
and after. What a reachable launch charges for an amount is no less than what a new launch charges,
and no less than what the launch itself pays for it. -/
theorem prices_move (reachable : world.Reachable) :
    (∀ accounts tokenAmountOut maxSolIn world',
      Buy.handler accounts world tokenAmountOut maxSolIn = .ok world' →
      ∃ launch launch', world.launches (.launch accounts.mint) = some launch ∧
        world'.launches (.launch accounts.mint) = some launch' ∧ ∀ amount quote quote',
          (launch.buyQuote amount = .ok quote → launch'.buyQuote amount = .ok quote' →
            quote ≤ quote') ∧
          (launch.sellQuote amount = .ok quote → launch'.sellQuote amount = .ok quote' →
            quote ≤ quote')) ∧
    (∀ accounts tokenAmountIn minSolOut world',
      Sell.handler accounts world tokenAmountIn minSolOut = .ok world' →
      ∃ launch launch', world.launches (.launch accounts.mint) = some launch ∧
        world'.launches (.launch accounts.mint) = some launch' ∧ ∀ amount quote quote',
          (launch.buyQuote amount = .ok quote → launch'.buyQuote amount = .ok quote' →
            quote' ≤ quote) ∧
          (launch.sellQuote amount = .ok quote → launch'.sellQuote amount = .ok quote' →
            quote' ≤ quote)) ∧
    ∀ mint launch, world.launches (.launch mint) = some launch → ∀ amount charged,
      launch.buyQuote amount = .ok charged →
      (∀ first, TokenLaunch.Created first →
        ∃ fresh, first.buyQuote amount = .ok fresh ∧ fresh ≤ charged) ∧
      ∃ paid, launch.sellQuote amount = .ok paid ∧ paid ≤ charged := by
  refine ⟨fun accounts tokenAmountOut maxSolIn world' accepted => ?_,
    fun accounts tokenAmountIn minSolOut world' accepted => ?_,
    fun mint launch present amount charged buys => ⟨fun first created => ?_, ?_⟩⟩
  · obtain ⟨bought⟩ := Buy.execution accepted
    have dearer := bought.bought.dearer
    refine ⟨bought.launch, bought.launch', bought.met.launchPresent, ?_, fun amount quote quote' =>
      ⟨dearer.buyQuote_le, dearer.sellQuote_le⟩⟩
    exact bought.launch_after
  · obtain ⟨sold⟩ := Sell.execution accepted
    have cheaper := sold.sold.cheaper
    refine ⟨sold.launch, sold.launch', sold.met.launchPresent, ?_, fun amount quote quote' =>
      ⟨fun before after => cheaper.buyQuote_le after before,
        fun before after => cheaper.sellQuote_le after before⟩⟩
    exact sold.launch_after
  · have books := reachable.trading present (reachable.trading_of_buyQuote present buys)
    refine created.buyQuote_le ((reachable.live present).dearer books created) ?_ buys
    obtain ⟨accounts, bumps, createdAt, rfl⟩ := created
    exact Nat.le.intro books.allocation
  · have positive := (TokenLaunch.buyQuote_eq_ok.mp buys).1
    obtain ⟨paid, sells⟩ : ∃ paid, launch.sellQuote amount = .ok paid :=
      solOutForTokensIn_total positive (lt_of_le_of_lt (reachable.x_le present) (by decide))
        (reachable.k_lt present)
    exact ⟨paid, sells, TokenLaunch.sellQuote_le_buyQuote buys sells⟩

/-- After an accepted buy of an eighth of the allocation, no amount is quoted lower. -/
theorem prices_move_sample :
    let world := Sample.after Sample.params []
    let accounts := Sample.trading Sample.whale
    let buy : Action := .buy accounts 100_000_000_000_000 5_000_000_000
    ∃ launch launch', world.launches (.launch accounts.mint) = some launch ∧
      (world.run [buy]).launches (.launch accounts.mint) = some launch' ∧ ∀ amount quote quote',
        (launch.buyQuote amount = .ok quote → launch'.buyQuote amount = .ok quote' →
          quote ≤ quote') ∧
        (launch.sellQuote amount = .ok quote → launch'.sellQuote amount = .ok quote' →
          quote ≤ quote') := by
  intro world accounts buy
  have accepted : (world.execute buy).isOk := by decide +kernel
  have executed : world.execute buy = .ok (world.run [buy]) := execute_run accepted
  have reachable : world.Reachable := Sample.reachable_after _ _
  exact (prices_move reachable).1 accounts _ _ _ executed

end World

/-! ### Hitting a target -/

/-- Every recorded SOL up to what the unsold tokens are worth is reached by some amount: from one
amount to the next, the charge grows by at most one lamport. -/
theorem Market.Trading.exists_solToCurve_eq {market : Market} {launch : TokenLaunch} {target : ℕ}
    (books : market.Trading launch) (small : launch.x ≤ 35_000_000_000)
    (above : launch.realSolReserves.toNat < target)
    (reached : target ≤ launch.realSolReserves.toNat +
      launch.solToCurve launch.realTokenReserves.toNat) :
    ∃ amount : UInt64, 0 < amount.toNat ∧ amount.toNat ≤ launch.realTokenReserves.toNat ∧
      launch.realSolReserves.toNat + launch.solToCurve amount.toNat = target := by
  have room := books.lt_y le_rfl
  have allocation := books.allocation
  have offset := books.offset
  have units : TokenLaunch.curveAllocationUnits.toNat = 800_000_000_000_000 := rfl
  have virtualUnits : TokenLaunch.virtualTokenUnits.toNat = 1_236_363_636_000_000 := rfl
  have deep : launch.x * launch.y ≤ (launch.y - launch.realTokenReserves.toNat) *
      (launch.y - launch.realTokenReserves.toNat) :=
    calc launch.x * launch.y ≤ 35_000_000_000 * 1_236_363_636_000_000 :=
          Nat.mul_le_mul small (by omega)
      _ ≤ 436_363_636_000_000 * 436_363_636_000_000 := by decide
      _ ≤ _ := Nat.mul_le_mul (by omega) (by omega)
  obtain ⟨tokens, available, value⟩ := exists_cost_eq room deep
    (show target - launch.realSolReserves.toNat ≤ launch.solToCurve _ by omega)
  have word := launch.realTokenReserves.toNat_lt
  obtain ⟨amount, rfl⟩ := exists_toNat_eq (lt_of_le_of_lt available word)
  have value : launch.solToCurve amount.toNat = target - launch.realSolReserves.toNat := value
  refine ⟨amount, Nat.pos_of_ne_zero fun zero => ?_, available, by omega⟩
  have nothing : launch.solToCurve 0 = 0 := cost_zero (Nat.zero_lt_of_lt room)
  rw [zero, nothing] at value
  omega

namespace World

/-- For a launch that trades, every target up to the cap that buying out the unsold tokens would
reach is hit to the lamport by one buy. With the threshold at the cap, so is the threshold: the
buy that hits it is accepted where it can be paid and delivered, and leaves the launch ready. -/
theorem target_hit {world : World} (reachable : world.Reachable) {mint : Pubkey}
    {launch : TokenLaunch} (present : world.launches (.launch mint) = some launch)
    (trading : launch.graduated = false) {everything : UInt64}
    (buyout : launch.buyQuote launch.realTokenReserves = .ok everything) :
    (∀ target, launch.realSolReserves.toNat < target →
      target ≤ TokenLaunch.maxRealSolReserves.toNat →
      target ≤ launch.realSolReserves.toNat + everything.toNat →
      ∃ amount charged, 0 < amount.toNat ∧ amount ≤ launch.realTokenReserves ∧
        launch.buyQuote amount = .ok charged ∧
        launch.realSolReserves.toNat + charged.toNat = target) ∧
    ∀ config, world.config = some config → config.paused = false →
      config.graduationThresholdLamports = TokenLaunch.maxRealSolReserves →
      launch.realSolReserves < config.graduationThresholdLamports →
      TokenLaunch.maxRealSolReserves.toNat ≤
        launch.realSolReserves.toNat + everything.toNat →
      ∃ amount, ∀ accounts maxSolIn, accounts.mint = mint →
        TradeAccounts.Met accounts world config launch →
        launch.totalCost config amount.toNat ≤ maxSolIn.toNat →
        launch.totalCost config amount.toNat ≤ world.lamports accounts.trader →
        amount.toNat ≤ world.tokenAccounts.amountAt accounts.curveTokenAccount →
        ∃ world' launch', Buy.handler accounts world amount maxSolIn = .ok world' ∧
          world'.launches (.launch mint) = some launch' ∧
          launch'.realSolReserves = config.graduationThresholdLamports := by
  have books := reachable.trading present trading
  have small := reachable.x_le present
  obtain ⟨_, _, _, _, worth⟩ := TokenLaunch.buyQuote_eq_ok.mp buyout
  refine ⟨fun target above _ reached => ?_, fun config configured notPaused threshold below reached =>
    ?_⟩
  · rw [worth] at reached
    obtain ⟨amount, positive, available, hit⟩ := books.exists_solToCurve_eq small above reached
    obtain ⟨charged, quoted⟩ := books.buyQuote_total small positive available
    refine ⟨amount, charged, positive, UInt64.le_iff_toNat_le.mpr available, quoted, ?_⟩
    rw [(TokenLaunch.buyQuote_eq_ok.mp quoted).2.2.2.2, hit]
  · rw [worth] at reached
    rw [threshold, UInt64.lt_iff_toNat_lt] at below
    obtain ⟨amount, positive, available, hit⟩ := books.exists_solToCurve_eq small below reached
    refine ⟨amount, ?_⟩
    rintro accounts maxSolIn rfl met slippage lamports tokens
    obtain ⟨world', accepted⟩ := reachable.buy_accepted met
      ⟨notPaused, trading, positive, available, slippage, hit.le, lamports, tokens⟩
    obtain ⟨bought⟩ := Buy.execution accepted
    obtain rfl := Option.some.inj (present.symm.trans bought.met.launchPresent)
    refine ⟨world', bought.launch', accepted, ?_, ?_⟩
    · exact bought.launch_after
    · rw [threshold, ← UInt64.toNat_inj, bought.bought.realSol, ← hit]
      exact congrArg _ bought.bought.quoted

/-- One buy brings the new sample launch exactly to the cap. -/
theorem target_hit_sample :
    ∃ launch, (Sample.after Sample.params []).launches (.launch Sample.mint) = some launch ∧
      ∃ amount charged, launch.buyQuote amount = .ok charged ∧ charged.toNat = 5_000_000_000 := by
  have found : ((Sample.after Sample.params []).launches (.launch Sample.mint)).map
      (fun launch => (launch.graduated, launch.realSolReserves.toNat,
        (launch.buyQuote launch.realTokenReserves).toOption)) =
      some (false, 0, some 55_000_000_046) := by decide +kernel
  obtain ⟨launch, present, fields⟩ := Option.map_eq_some_iff.mp found
  obtain ⟨trading, fields⟩ := Prod.mk.inj fields
  obtain ⟨empty, worth⟩ := Prod.mk.inj fields
  refine ⟨launch, present, ?_⟩
  cases buyout : launch.buyQuote launch.realTokenReserves with
  | error _ =>
    rw [buyout] at worth
    cases worth
  | ok everything =>
    rw [buyout] at worth
    obtain rfl := Option.some.inj worth
    obtain ⟨amount, charged, _, _, quoted, hit⟩ :=
      (target_hit (Sample.reachable_after _ _) present trading buyout).1 5_000_000_000
        (empty ▸ by decide) le_rfl (empty ▸ by decide)
    exact ⟨amount, charged, quoted, by rwa [empty, Nat.zero_add] at hit⟩

end World

/-! ### Orders in parts -/

/-- A buy with its accounts and limit. -/
structure BuyOrder where
  accounts : TradeAccounts
  tokenAmountOut : UInt64
  maxSolIn : UInt64

namespace BuyOrder

/-- The order as a transaction. -/
def action (order : BuyOrder) : Action := .buy order.accounts order.tokenAmountOut order.maxSolIn

/-- The amounts of some orders. -/
def amounts (orders : List BuyOrder) : List ℕ := orders.map (·.tokenAmountOut.toNat)

theorem amounts_cons (order : BuyOrder) (rest : List BuyOrder) :
    amounts (order :: rest) = order.tokenAmountOut.toNat :: amounts rest := rfl

end BuyOrder

namespace World

/-- The quote with which a buy is charged, before its fee. -/
def charged (world : World) : Action → World → ℕ
  | .buy accounts tokenAmountOut _, _ => (world.launches (.launch accounts.mint)).elim 0
      fun launch => (launch.buyQuote tokenAmountOut).toOption.elim 0 UInt64.toNat
  | _, _ => 0

/-- A launch after accepted orders for some amounts, one after the other. -/
structure BoughtInParts (launch : TokenLaunch) (amounts : List ℕ) (launch' : TokenLaunch) :
    Prop where
  realTokens : launch'.realTokenReserves.toNat + amounts.sum = launch.realTokenReserves.toNat
  virtualTokens : launch'.y + amounts.sum = launch.y
  tokensSold : launch'.tokensSold.toNat = launch.tokensSold.toNat + amounts.sum

theorem BoughtInParts.cons {launch launch' launch'' : TokenLaunch} {amount charge : ℕ}
    {amounts : List ℕ} (bought : launch.Bought amount charge launch')
    (later : BoughtInParts launch' amounts launch'') :
    BoughtInParts launch (amount :: amounts) launch'' where
  realTokens := by
    rw [List.sum_cons, ← bought.realTokens, ← later.realTokens, Nat.add_comm amount, Nat.add_assoc]
  virtualTokens := by
    rw [List.sum_cons, ← bought.virtualTokens, ← later.virtualTokens, Nat.add_comm amount,
      Nat.add_assoc]
  tokensSold := by
    rw [List.sum_cons, later.tokensSold, bought.tokensSold, Nat.add_assoc]

/-- An accepted order is charged the quote of its amount. -/
theorem Reachable.charged_eq {world world' : World} (reachable : world.Reachable)
    {order : BuyOrder} (bought : Buy.Execution order.accounts world order.tokenAmountOut
      order.maxSolIn world') :
    world.charged order.action world' =
      ConstantProduct.cost bought.launch.x bought.launch.y order.tokenAmountOut.toNat := by
  have trade := bought.bought
  obtain ⟨solIn, quoted⟩ := (reachable.trading bought.met.launchPresent trade.trading).buyQuote_total
    (reachable.x_le bought.met.launchPresent) trade.positive trade.available
  show (world.launches _).elim 0 _ = _
  rw [bought.met.launchPresent]
  show (bought.launch.buyQuote _).toOption.elim 0 _ = _
  rw [quoted]
  exact (TokenLaunch.buyQuote_eq_ok.mp quoted).2.2.2.2

/-- Each order is charged at the reserves that the orders before it have left. -/
theorem Reachable.bought_in_parts {mint : Pubkey} {world : World} (reachable : world.Reachable)
    {launch : TokenLaunch} (present : world.launches (.launch mint) = some launch)
    {orders : List BuyOrder} (addressed : ∀ order ∈ orders, order.accounts.mint = mint)
    (accepted : world.Along (fun world action => (world.execute action).isOk)
      (orders.map BuyOrder.action)) :
    ∃ launch', (world.run (orders.map BuyOrder.action)).launches (.launch mint) = some launch' ∧
      BoughtInParts launch (BuyOrder.amounts orders) launch' ∧
      world.tally charged (orders.map BuyOrder.action) =
        ConstantProduct.totalCost launch.x launch.y (BuyOrder.amounts orders) := by
  induction orders generalizing world launch with
  | nil => exact ⟨launch, present, ⟨rfl, rfl, rfl⟩, rfl⟩
  | cons order rest inductionHypothesis =>
    rw [List.map_cons] at accepted ⊢
    have executed := execute_run accepted.1
    obtain ⟨_, later⟩ := (along_ok executed _).mp accepted
    obtain rfl := addressed order List.mem_cons_self
    obtain ⟨bought⟩ := Buy.execution executed
    obtain ⟨bought, same⟩ : ∃ bought : Buy.Execution order.accounts world _ _ _,
        bought.launch = launch :=
      ⟨bought, Option.some.inj (bought.met.launchPresent.symm.trans present)⟩
    have first := reachable.charged_eq bought
    have trade := bought.bought
    rw [same] at first trade
    have found : (world.run [order.action]).launches (.launch order.accounts.mint) =
        some bought.launch' := bought.launch_after
    obtain ⟨launch', after, parts, total⟩ := inductionHypothesis (reachable.run _) found
      (fun other member => addressed other (List.mem_cons_of_mem _ member)) later
    refine ⟨launch', ?_, parts.cons trade, ?_⟩
    · rw [run_ok executed, after]
    · have reserves : launch.x + ConstantProduct.cost launch.x launch.y order.tokenAmountOut.toNat =
          bought.launch'.x := by rw [trade.x_eq, trade.quoted]
      rw [tally_ok _ executed, first, total, BuyOrder.amounts_cons, ConstantProduct.totalCost,
        reserves, trade.y_eq]

/-- Splitting an order leaves the same tokens. It charges no less than the order at once, and less
than three lamports more for each part. -/
theorem split_order {world : World} (reachable : world.Reachable) {mint : Pubkey}
    {launch : TokenLaunch} (present : world.launches (.launch mint) = some launch)
    {whole : BuyOrder} {parts : List BuyOrder} (ordered : parts ≠ [])
    (addressed : ∀ order ∈ whole :: parts, order.accounts.mint = mint)
    (split : (BuyOrder.amounts parts).sum = whole.tokenAmountOut.toNat)
    (atOnce : (world.execute whole.action).isOk)
    (inParts : world.Along (fun world action => (world.execute action).isOk)
      (parts.map BuyOrder.action)) :
    ∃ once launch', (world.run [whole.action]).launches (.launch mint) = some once ∧
      (world.run (parts.map BuyOrder.action)).launches (.launch mint) = some launch' ∧
      launch'.realTokenReserves = once.realTokenReserves ∧
      launch'.virtualTokenReserves = once.virtualTokenReserves ∧
      launch'.tokensSold = once.tokensSold ∧
      world.tally charged [whole.action] ≤ world.tally charged (parts.map BuyOrder.action) ∧
      world.tally charged (parts.map BuyOrder.action) <
        world.tally charged [whole.action] + 3 * parts.length := by
  obtain ⟨bought⟩ := Buy.execution (execute_run atOnce)
  have first := addressed whole List.mem_cons_self
  obtain rfl : bought.launch = launch :=
    Option.some.inj (bought.met.launchPresent.symm.trans (first ▸ present))
  have alone : ∀ order ∈ [whole], order.accounts.mint = mint :=
    fun _ member => List.mem_singleton.mp member ▸ first
  obtain ⟨once, onceFound, single, onceTotal⟩ :=
    reachable.bought_in_parts present alone ⟨atOnce, trivial⟩
  obtain ⟨launch', found, several, total⟩ := reachable.bought_in_parts present
    (fun order member => addressed order (List.mem_cons_of_mem _ member)) inParts
  have sum : (BuyOrder.amounts [whole]).sum = (BuyOrder.amounts parts).sum := by
    rw [split]
    exact Nat.add_zero _
  have room : (BuyOrder.amounts parts).sum < bought.launch.y := split ▸ bought.bought.room
  have deep := (reachable.trading bought.met.launchPresent bought.bought.trading).y_lt
    bought.bought.available
  have charge : world.tally charged [whole.action] =
      ConstantProduct.cost bought.launch.x bought.launch.y (BuyOrder.amounts parts).sum := by
    rw [split]
    exact onceTotal.trans (Nat.add_zero _)
  refine ⟨once, launch', onceFound, found, ?_, ?_, ?_, ?_, ?_⟩
  · rw [← UInt64.toNat_inj, ← Nat.add_right_cancel_iff, several.realTokens, ← sum,
      single.realTokens]
  · rw [← UInt64.toNat_inj]
    exact Nat.add_right_cancel (several.virtualTokens.trans (sum ▸ single.virtualTokens).symm)
  · rw [← UInt64.toNat_inj, several.tokensSold, single.tokensSold, sum]
  · rw [charge, total]
    exact cost_le_totalCost room
  · rw [charge, total, show parts.length = (BuyOrder.amounts parts).length from
      (List.length_map _).symm]
    refine totalCost_lt room ?_ (split ▸ deep)
    exact fun empty => ordered (List.map_eq_nil_iff.mp empty)

/-- An order of an eighth of the allocation, bought at once and in two parts. -/
theorem split_order_sample :
    let world := Sample.after Sample.params []
    let order (tokenAmountOut : UInt64) : BuyOrder :=
      ⟨Sample.trading Sample.whale, tokenAmountOut, 5_000_000_000⟩
    let whole := order 100_000_000_000_000
    let parts := [order 30_000_000_000_000, order 70_000_000_000_000]
    world.tally charged [whole.action] ≤ world.tally charged (parts.map BuyOrder.action) ∧
      world.tally charged (parts.map BuyOrder.action) < world.tally charged [whole.action] + 6 := by
  intro world order whole parts
  have reachable : world.Reachable := Sample.reachable_after _ _
  obtain ⟨launch, present⟩ : ∃ launch, world.launches (.launch Sample.mint) = some launch :=
    Option.isSome_iff_exists.mp (by decide +kernel)
  have addressed : ∀ order ∈ whole :: parts, order.accounts.mint = Sample.mint := by
    simp [whole, parts, order, Sample.trading]
  have split : (BuyOrder.amounts parts).sum = whole.tokenAmountOut.toNat := by decide
  have atOnce : (world.execute whole.action).isOk := by decide +kernel
  have first : (world.execute (order 30_000_000_000_000).action).isOk := by decide +kernel
  have second : ((world.run [(order 30_000_000_000_000).action]).execute
    (order 70_000_000_000_000).action).isOk := by decide +kernel
  obtain ⟨_, _, _, _, _, _, _, atLeast, lessThan⟩ := split_order reachable present
    (List.cons_ne_nil _ _) addressed split atOnce ⟨first, second, trivial⟩
  exact ⟨atLeast, lessThan⟩

end World

end Memecoin
