/-
This file says when a trade is accepted. In a reachable state the reserves of
every launch and the rates of every configuration keep all checked operations of
`buy` and `sell` in range, so a trade that meets its account constraints is
refused for one of a few stated reasons and never in arithmetic. Each reason is
a condition on the state and the arguments; where none of them applies, the
trade goes through.
-/

import Memecoin.Solvency

namespace Memecoin

open Checked ConstantProduct

/-! ### The terms of a trade -/

/-- The trade fee on an amount. -/
def Config.tradeFee (config : Config) (amount : ℕ) : ℕ :=
  amount * config.tradeFeeBps.toNat / 10_000

namespace TokenLaunch

/-- What buying `tokens` brings to the curve. -/
def solToCurve (launch : TokenLaunch) (tokens : ℕ) : ℕ := cost launch.x launch.y tokens

/-- The exact-out quote at the reserves of a launch. -/
def buyQuote (launch : TokenLaunch) (tokensOut : UInt64) : Except MemecoinError UInt64 :=
  solInForTokensOut launch.virtualSolReserves launch.virtualTokenReserves launch.realSolReserves
    launch.realTokenReserves tokensOut

/-- The quote of a sale at the reserves of a launch. -/
def sellQuote (launch : TokenLaunch) (tokensIn : UInt64) : Except MemecoinError UInt64 :=
  solOutForTokensIn launch.virtualSolReserves launch.virtualTokenReserves launch.realSolReserves
    tokensIn

/-- What buying `tokens` costs with its fee. -/
def totalCost (launch : TokenLaunch) (config : Config) (tokens : ℕ) : ℕ :=
  launch.solToCurve tokens + config.tradeFee (launch.solToCurve tokens)

/-- What selling `tokens` takes from the curve. -/
def grossSolOut (launch : TokenLaunch) (tokens : ℕ) : ℕ :=
  cappedProceeds launch.x launch.y tokens launch.realSolReserves.toNat

/-- What selling `tokens` leaves after its fee. -/
def netSolOut (launch : TokenLaunch) (config : Config) (tokens : ℕ) : ℕ :=
  launch.grossSolOut tokens - config.tradeFee (launch.grossSolOut tokens)

theorem buyQuote_eq_ok {launch : TokenLaunch} {tokensOut solIn : UInt64} :
    launch.buyQuote tokensOut = .ok solIn ↔
      0 < tokensOut.toNat ∧ tokensOut.toNat ≤ launch.realTokenReserves.toNat ∧
        tokensOut.toNat < launch.y ∧ launch.k + (launch.y - tokensOut.toNat - 1) < 2 ^ 128 ∧
        solIn.toNat = launch.solToCurve tokensOut.toNat :=
  solInForTokensOut_eq_ok

theorem sellQuote_eq_ok {launch : TokenLaunch} {tokensIn solOut : UInt64} :
    launch.sellQuote tokensIn = .ok solOut ↔
      0 < tokensIn.toNat ∧ launch.k < 2 ^ 128 ∧
        proceeds launch.x launch.y tokensIn.toNat < 2 ^ 64 ∧
        solOut.toNat = launch.grossSolOut tokensIn.toNat :=
  solOutForTokensIn_eq_ok

end TokenLaunch

/-! ### The stated reasons -/

/-- The reasons for which a buy is refused, with the errors that report them. -/
inductive Buy.Refusal (accounts : TradeAccounts) (world : World) (config : Config)
    (launch : TokenLaunch) (tokenAmountOut maxSolIn : UInt64) : ProgramError → Prop
  | paused (paused : config.paused = true) :
    Refusal accounts world config launch tokenAmountOut maxSolIn (.memecoin .paused)
  | graduated (graduated : launch.graduated = true) :
    Refusal accounts world config launch tokenAmountOut maxSolIn (.memecoin .alreadyGraduated)
  | zero (zero : tokenAmountOut.toNat = 0) :
    Refusal accounts world config launch tokenAmountOut maxSolIn (.memecoin .zeroBuyAmount)
  | reserves (short : launch.realTokenReserves.toNat < tokenAmountOut.toNat) :
    Refusal accounts world config launch tokenAmountOut maxSolIn (.memecoin .insufficientReserves)
  | slippage (above : maxSolIn.toNat < launch.totalCost config tokenAmountOut.toNat) :
    Refusal accounts world config launch tokenAmountOut maxSolIn (.memecoin .slippageExceeded)
  | cap (above : TokenLaunch.maxRealSolReserves.toNat <
      launch.realSolReserves.toNat + launch.solToCurve tokenAmountOut.toNat) :
    Refusal accounts world config launch tokenAmountOut maxSolIn (.memecoin .betaCapExceeded)
  | lamports (short : world.lamports accounts.trader <
      launch.totalCost config tokenAmountOut.toNat) :
    Refusal accounts world config launch tokenAmountOut maxSolIn .insufficientLamports
  | tokens (short : world.tokenAccounts.amountAt accounts.curveTokenAccount <
      tokenAmountOut.toNat) :
    Refusal accounts world config launch tokenAmountOut maxSolIn .insufficientFunds

/-- The reasons for which a sale is refused, with the errors that report them. -/
inductive Sell.Refusal (accounts : TradeAccounts) (world : World) (config : Config)
    (launch : TokenLaunch) (tokenAmountIn minSolOut : UInt64) : ProgramError → Prop
  | paused (paused : config.paused = true) :
    Refusal accounts world config launch tokenAmountIn minSolOut (.memecoin .paused)
  | graduated (graduated : launch.graduated = true) :
    Refusal accounts world config launch tokenAmountIn minSolOut (.memecoin .alreadyGraduated)
  | zero (zero : tokenAmountIn.toNat = 0) :
    Refusal accounts world config launch tokenAmountIn minSolOut (.memecoin .zeroSellAmount)
  | slippage (below : launch.netSolOut config tokenAmountIn.toNat < minSolOut.toNat) :
    Refusal accounts world config launch tokenAmountIn minSolOut (.memecoin .insufficientSolOut)
  | tokens (short : world.tokenAccounts.amountAt accounts.traderTokenAccount <
      tokenAmountIn.toNat) :
    Refusal accounts world config launch tokenAmountIn minSolOut .insufficientFunds

/-- No reason to refuse a buy applies. -/
structure Buy.Ready (accounts : TradeAccounts) (world : World) (config : Config)
    (launch : TokenLaunch) (tokenAmountOut maxSolIn : UInt64) : Prop where
  notPaused : config.paused = false
  trading : launch.graduated = false
  positive : 0 < tokenAmountOut.toNat
  available : tokenAmountOut.toNat ≤ launch.realTokenReserves.toNat
  slippage : launch.totalCost config tokenAmountOut.toNat ≤ maxSolIn.toNat
  capped : launch.realSolReserves.toNat + launch.solToCurve tokenAmountOut.toNat ≤
    TokenLaunch.maxRealSolReserves.toNat
  lamports : launch.totalCost config tokenAmountOut.toNat ≤ world.lamports accounts.trader
  tokens : tokenAmountOut.toNat ≤ world.tokenAccounts.amountAt accounts.curveTokenAccount

/-- No reason to refuse a sale applies. -/
structure Sell.Ready (accounts : TradeAccounts) (world : World) (config : Config)
    (launch : TokenLaunch) (tokenAmountIn minSolOut : UInt64) : Prop where
  notPaused : config.paused = false
  trading : launch.graduated = false
  positive : 0 < tokenAmountIn.toNat
  slippage : minSolOut.toNat ≤ launch.netSolOut config tokenAmountIn.toNat
  tokens : tokenAmountIn.toNat ≤ world.tokenAccounts.amountAt accounts.traderTokenAccount

/-- The terms of an accepted buy, as functions of what it read. -/
theorem Buy.Execution.terms_eq {accounts : TradeAccounts} {world world' : World}
    {tokenAmountOut maxSolIn : UInt64}
    (bought : Execution accounts world tokenAmountOut maxSolIn world') :
    bought.terms.solToCurve.toNat = bought.launch.solToCurve tokenAmountOut.toNat ∧
      bought.terms.fee.toNat =
        bought.config.tradeFee (bought.launch.solToCurve tokenAmountOut.toNat) ∧
      bought.terms.solToCurve.toNat + bought.terms.fee.toNat =
        bought.launch.totalCost bought.config tokenAmountOut.toNat := by
  have charge : bought.terms.solToCurve.toNat =
    bought.launch.solToCurve tokenAmountOut.toNat := bought.bought.quoted
  have fee : bought.terms.fee.toNat =
    bought.config.tradeFee (bought.launch.solToCurve tokenAmountOut.toNat) := charge ▸ bought.fee
  exact ⟨charge, fee, by rw [TokenLaunch.totalCost, charge, fee]⟩

/-- The terms of an accepted sale, as functions of what it read. -/
theorem Sell.Execution.terms_eq {accounts : TradeAccounts} {world world' : World}
    {tokenAmountIn minSolOut : UInt64}
    (sold : Execution accounts world tokenAmountIn minSolOut world') :
    sold.terms.grossSolOut.toNat = sold.launch.grossSolOut tokenAmountIn.toNat ∧
      sold.terms.fee.toNat =
        sold.config.tradeFee (sold.launch.grossSolOut tokenAmountIn.toNat) ∧
      sold.terms.netSolOut.toNat = sold.launch.netSolOut sold.config tokenAmountIn.toNat := by
  have payout : sold.terms.grossSolOut.toNat =
    sold.launch.grossSolOut tokenAmountIn.toNat := sold.sold.quoted
  have fee : sold.terms.fee.toNat =
    sold.config.tradeFee (sold.launch.grossSolOut tokenAmountIn.toNat) := payout ▸ sold.fee
  exact ⟨payout, fee, by rw [TokenLaunch.netSolOut, ← fee, ← payout, ← sold.net, Nat.add_sub_cancel]⟩

theorem Buy.Ready.not_refused {accounts : TradeAccounts} {world : World} {config : Config}
    {launch : TokenLaunch} {tokenAmountOut maxSolIn : UInt64} {error : ProgramError}
    (ready : Buy.Ready accounts world config launch tokenAmountOut maxSolIn) :
    ¬ Buy.Refusal accounts world config launch tokenAmountOut maxSolIn error := by
  intro refused
  cases refused with
  | paused paused => cases ready.notPaused.symm.trans paused
  | graduated graduated => cases ready.trading.symm.trans graduated
  | zero zero => exact ready.positive.ne' zero
  | reserves short => exact Nat.not_le_of_lt short ready.available
  | slippage above => exact Nat.not_le_of_lt above ready.slippage
  | cap above => exact Nat.not_le_of_lt above ready.capped
  | lamports short => exact Nat.not_le_of_lt short ready.lamports
  | tokens short => exact Nat.not_le_of_lt short ready.tokens

theorem Sell.Ready.not_refused {accounts : TradeAccounts} {world : World} {config : Config}
    {launch : TokenLaunch} {tokenAmountIn minSolOut : UInt64} {error : ProgramError}
    (ready : Sell.Ready accounts world config launch tokenAmountIn minSolOut) :
    ¬ Sell.Refusal accounts world config launch tokenAmountIn minSolOut error := by
  intro refused
  cases refused with
  | paused paused => cases ready.notPaused.symm.trans paused
  | graduated graduated => cases ready.trading.symm.trans graduated
  | zero zero => exact ready.positive.ne' zero
  | slippage below => exact Nat.not_le_of_lt below ready.slippage
  | tokens short => exact Nat.not_le_of_lt short ready.tokens

namespace World

variable {world : World} {mint : Pubkey} {launch : TokenLaunch}

/-! ### Reserves and rates in range -/

theorem Reachable.live (reachable : world.Reachable)
    (present : world.launches (.launch mint) = some launch) : (world.market mint).Live launch :=
  (reachable.sound mint).live launch present

theorem Reachable.trading (reachable : world.Reachable)
    (present : world.launches (.launch mint) = some launch) (trades : launch.graduated = false) :
    (world.market mint).Trading launch :=
  (reachable.live present).trading trades

/-- The first reserve of a launch is far from the limits of a word, in either phase. -/
theorem Reachable.x_le (reachable : world.Reachable)
    (present : world.launches (.launch mint) = some launch) : launch.x ≤ 35_000_000_000 := by
  have live := reachable.live present
  have capped : launch.realSolReserves.toNat ≤ TokenLaunch.maxRealSolReserves.toNat := by
    cases phase : launch.graduated with
    | false => exact (live.trading phase).capped
    | true =>
      rw [(live.closed phase).emptied]
      exact Nat.zero_le _
  rw [TokenLaunch.x, live.virtualSol]
  exact Nat.add_le_add_left capped _

/-- The product of a launch is a 128-bit intermediate. -/
theorem Reachable.k_lt (reachable : world.Reachable)
    (present : world.launches (.launch mint) = some launch) : launch.k < 2 ^ 128 :=
  calc launch.k ≤ 35_000_000_000 * launch.y := Nat.mul_le_mul_right _ (reachable.x_le present)
    _ < 35_000_000_000 * 2 ^ 64 :=
      Nat.mul_lt_mul_of_pos_left launch.virtualTokenReserves.toNat_lt (by decide)
    _ ≤ 2 ^ 128 := by decide

/-- What a signer moves to the curve was sold before. -/
theorem Reachable.moved_in_le {world' : World} (reachable : world.Reachable)
    (present : world.launches (.launch mint) = some launch) (trades : launch.graduated = false)
    {source destination trader : Pubkey} {amount : ℕ} (signs : trader.canSign)
    (moved : world.tokenAccounts.Moved source destination amount mint trader (.launch mint)
      world'.tokenAccounts) : amount ≤ launch.tokensSold.toNat := by
  obtain ⟨_, other⟩ := curveTokens_moved_in signs moved
  exact (reachable.trading present trades).sold_le (Nat.le.intro ((Nat.add_comm _ _).trans other))

theorem Reachable.sold_le {world' : World} (reachable : world.Reachable)
    {accounts : TradeAccounts} {tokenAmountIn minSolOut : UInt64}
    (sold : Sell.Execution accounts world tokenAmountIn minSolOut world') :
    tokenAmountIn.toNat ≤ sold.launch.tokensSold.toNat :=
  reachable.moved_in_le sold.met.launchPresent sold.sold.trading sold.met.signer sold.tokens

/-- What a seller can transfer was sold before. -/
theorem Reachable.transferred_le {world' : World} (reachable : world.Reachable)
    {accounts : TradeAccounts} {config : Config} (met : accounts.Met world config launch)
    (trades : launch.graduated = false) {amount : UInt64}
    (transferred : world.tokenTransfer accounts.traderTokenAccount accounts.curveTokenAccount
      accounts.trader amount = .ok world') : amount.toNat ≤ launch.tokensSold.toNat := by
  obtain ⟨_, token, owner, moved⟩ := tokenTransfer_ok transferred
  obtain ⟨rfl, -⟩ := Prod.mk.inj (Option.some.inj (met.traderTokenAccount.symm.trans moved.sourceShape))
  obtain ⟨-, rfl⟩ :=
    Prod.mk.inj (Option.some.inj (met.curveTokenAccount.symm.trans moved.destinationShape))
  exact reachable.moved_in_le met.launchPresent trades met.signer moved

end World

namespace Market

variable {market : Market} {launch : TokenLaunch} {tokens : ℕ}

/-- The whole allocation can be bought: its purchase leaves more than a third of the reserve. -/
theorem Trading.y_lt (books : market.Trading launch)
    (available : tokens ≤ launch.realTokenReserves.toNat) : launch.y < 3 * (launch.y - tokens) := by
  have allocation := books.allocation
  have offset := books.offset
  have units : TokenLaunch.curveAllocationUnits.toNat = 800_000_000_000_000 := rfl
  have virtualUnits : TokenLaunch.virtualTokenUnits.toNat = 1_236_363_636_000_000 := rfl
  omega

theorem Trading.lt_y (books : market.Trading launch)
    (available : tokens ≤ launch.realTokenReserves.toNat) : tokens < launch.y := by
  have deep := books.y_lt available
  omega

/-- No purchase more than triples the price. -/
theorem Trading.solToCurve_le (books : market.Trading launch)
    (available : tokens ≤ launch.realTokenReserves.toNat) :
    launch.solToCurve tokens ≤ 2 * launch.x := by
  have deep := books.y_lt available
  rw [TokenLaunch.solToCurve, cost_le_iff (books.lt_y available), Nat.mul_comm 2, Nat.mul_assoc]
  exact Nat.mul_le_mul_left _ (by omega)

/-- Every available amount is quoted. -/
theorem Trading.buyQuote_total (books : market.Trading launch) (small : launch.x ≤ 35_000_000_000)
    {tokensOut : UInt64} (positive : 0 < tokensOut.toNat)
    (available : tokensOut.toNat ≤ launch.realTokenReserves.toNat) :
    ∃ solIn, launch.buyQuote tokensOut = .ok solIn := by
  have product : launch.k ≤ 35_000_000_000 * launch.y := Nat.mul_le_mul_right _ small
  have word : launch.y < 2 ^ 64 := launch.virtualTokenReserves.toNat_lt
  have bound := books.solToCurve_le available
  obtain ⟨solIn, value⟩ : ∃ solIn : UInt64, solIn.toNat = launch.solToCurve tokensOut.toNat :=
    exists_toNat_eq (by omega)
  exact ⟨solIn, TokenLaunch.buyQuote_eq_ok.mpr
    ⟨positive, available, books.lt_y available, by omega, value⟩⟩

end Market

/-! ### Refused buys -/

theorem solInForTokensOut_unavailable {virtualSol virtualTokens realSol realTokenReserves tokensOut :
      UInt64} (positive : 0 < tokensOut.toNat)
    (short : realTokenReserves.toNat < tokensOut.toNat) :
    solInForTokensOut virtualSol virtualTokens realSol realTokenReserves tokensOut =
      .error .insufficientReserves := by
  refine bind_eq_error.mpr (.inr ⟨(), require_eq_ok.mpr (toNat_pos_iff.mpr positive), ?_⟩)
  refine bind_eq_error.mpr (.inl (require_eq_error.mpr ⟨not_not.mpr ?_, rfl⟩))
  exact UInt64.lt_iff_toNat_lt.mpr short

/-- The guards that both trades begin with. -/
theorem tradeGuards_error {Result : Type} {paused graduated : Bool} {amount : UInt64}
    {zeroAmount error : MemecoinError} {rest : Except MemecoinError Result}
    (rejected : (do
      require (¬ paused) .paused
      require (¬ graduated) .alreadyGraduated
      require (amount > 0) zeroAmount
      rest : Except MemecoinError Result) = .error error) :
    paused = true ∧ error = .paused ∨ graduated = true ∧ error = .alreadyGraduated ∨
      amount.toNat = 0 ∧ error = zeroAmount ∨
      graduated = false ∧ 0 < amount.toNat ∧ rest = .error error := by
  rcases bind_eq_error.mp rejected with failed | ⟨_, _, rejected⟩
  · obtain ⟨holds, same⟩ := require_eq_error.mp failed
    exact .inl ⟨not_not.mp holds, same.symm⟩
  rcases bind_eq_error.mp rejected with failed | ⟨_, trades, rejected⟩
  · obtain ⟨holds, same⟩ := require_eq_error.mp failed
    exact .inr (.inl ⟨not_not.mp holds, same.symm⟩)
  rcases bind_eq_error.mp rejected with failed | ⟨_, passed, rejected⟩
  · obtain ⟨zero, same⟩ := require_eq_error.mp failed
    rw [toNat_pos_of_gt_zero] at zero
    exact .inr (.inr (.inl ⟨Nat.eq_zero_of_not_pos zero, same.symm⟩))
  · exact .inr (.inr (.inr ⟨Bool.not_eq_true _ ▸ require_eq_ok.mp trades,
      toNat_pos_of_gt_zero.mp (require_eq_ok.mp passed), rejected⟩))

section Refused

variable {accounts : TradeAccounts} {world : World} {config : Config} {launch : TokenLaunch}

/-- The quote of a buy fails for stated reasons only. -/
theorem BuyTerms.quote_error {market : Market} {tokenAmountOut maxSolIn : UInt64}
    {error : MemecoinError} (valid : config.Valid) (small : launch.x ≤ 35_000_000_000)
    (books : launch.graduated = false → market.Trading launch)
    (rejected : quote config launch tokenAmountOut maxSolIn = .error error) :
    Buy.Refusal accounts world config launch tokenAmountOut maxSolIn (.memecoin error) := by
  rcases tradeGuards_error rejected with
    ⟨paused, rfl⟩ | ⟨graduated, rfl⟩ | ⟨zero, rfl⟩ | ⟨trades, positive, rejected⟩
  · exact .paused paused
  · exact .graduated graduated
  · exact .zero zero
  have books := books trades
  rcases Nat.lt_or_ge launch.realTokenReserves.toNat tokenAmountOut.toNat with short | available
  · have unavailable := @solInForTokensOut_unavailable launch.virtualSolReserves
      launch.virtualTokenReserves launch.realSolReserves _ _ positive short
    rcases bind_eq_error.mp rejected with failed | ⟨_, quoted, _⟩
    · obtain rfl := Except.error.inj (unavailable.symm.trans failed)
      exact .reserves short
    · cases unavailable.symm.trans quoted
  have bound := books.solToCurve_le available
  have part : config.tradeFeeBps.toNat ≤ 10_000 := valid.tradeFee.trans (by decide)
  obtain ⟨solToCurve, quoted, rejected⟩ :=
    of_bind_eq_error rejected (books.buyQuote_total small positive available)
  have charge : solToCurve.toNat = launch.solToCurve tokenAmountOut.toNat :=
    (solInForTokensOut_eq_ok.mp quoted).2.2.2.2
  obtain ⟨fee, charged, rejected⟩ := of_bind_eq_error rejected (feeOf_total solToCurve part)
  have feeValue := feeOf_eq_ok.mp charged
  have feeBound := bps_le solToCurve part
  obtain ⟨total, sum, rejected⟩ :=
    of_bind_eq_error rejected (okOr_checkedAdd_total (by omega) _)
  rcases bind_eq_error.mp rejected with failed | ⟨_, _, rejected⟩
  · obtain ⟨above, rfl⟩ := require_eq_error.mp failed
    rw [UInt64.le_iff_toNat_le, checkedAdd_eq_some.mp (okOr_eq_ok.mp sum), feeValue, charge] at above
    exact .slippage (Nat.lt_of_not_le above)
  · cases rejected

/-- The update of a buy fails at the cap only. -/
theorem TokenLaunch.applyBuy_error {market : Market} {solToCurve tokenAmountOut : UInt64}
    {error : MemecoinError} (books : market.Trading launch)
    (available : tokenAmountOut.toNat ≤ launch.realTokenReserves.toNat)
    (word : launch.realSolReserves.toNat + solToCurve.toNat < 2 ^ 64)
    (rejected : launch.applyBuy solToCurve tokenAmountOut = .error error) :
    maxRealSolReserves.toNat < launch.realSolReserves.toNat + solToCurve.toNat ∧
      error = .betaCapExceeded := by
  have room := books.lt_y available
  have allocation := books.allocation
  have units : curveAllocationUnits.toNat = 800_000_000_000_000 := rfl
  obtain ⟨realSol, added, rejected⟩ := of_bind_eq_error rejected (okOr_checkedAdd_total word _)
  rcases bind_eq_error.mp rejected with failed | ⟨_, _, rejected⟩
  · obtain ⟨above, rfl⟩ := require_eq_error.mp failed
    rw [UInt64.le_iff_toNat_le, checkedAdd_eq_some.mp (okOr_eq_ok.mp added)] at above
    exact ⟨Nat.lt_of_not_le above, rfl⟩
  obtain ⟨_, _, rejected⟩ := of_bind_eq_error rejected (okOr_checkedSub_total available _)
  obtain ⟨_, _, rejected⟩ := of_bind_eq_error rejected (okOr_checkedSub_total room.le _)
  obtain ⟨_, _, rejected⟩ := of_bind_eq_error rejected (okOr_checkedAdd_total (by omega) _)
  cases rejected

/-- The rates of a valid configuration leave the treasury a share. -/
theorem Config.Valid.splitThreeWay_total (valid : config.Valid) (fee : UInt64) :
    ∃ shares, splitThreeWay fee config.tradeSplitCreatorBps config.tradeSplitDinoBps
      config.tradeSplitTreasuryBps = .ok shares := by
  have tradeSplit := valid.tradeSplit
  exact Memecoin.splitThreeWay_total fee (by omega)

namespace World

/-- A buy that meets its account constraints is refused for stated reasons only. -/
theorem Reachable.buy_error (reachable : world.Reachable) {tokenAmountOut maxSolIn : UInt64}
    {error : ProgramError}
    (rejected : Buy.handler accounts world tokenAmountOut maxSolIn = .error error) :
    accounts.validate world = .error error ∨ ∃ config launch, accounts.Met world config launch ∧
      Buy.Refusal accounts world config launch tokenAmountOut maxSolIn error := by
  rcases bind_eq_error.mp rejected with failed | ⟨⟨config, launch⟩, validated, rejected⟩
  · exact .inl failed
  have met := TradeAccounts.validate_eq_ok.mp validated
  have valid := reachable.wellFormed.config config met.configPresent
  refine .inr ⟨config, launch, met, ?_⟩
  rcases bind_eq_error.mp rejected with failed | ⟨terms, quoted, rejected⟩
  · obtain ⟨_, failure, rfl⟩ := mapError_eq_error.mp failed
    exact BuyTerms.quote_error valid (reachable.x_le met.launchPresent)
      (reachable.trading met.launchPresent) failure
  obtain ⟨_, trades, quoted, fee, total, _⟩ := BuyTerms.quote_eq_ok.mp (mapError_eq_ok.mp quoted)
  obtain ⟨_, available, _, _, charge⟩ := solInForTokensOut_eq_ok.mp quoted
  have charge : terms.solToCurve.toNat = launch.solToCurve tokenAmountOut.toNat := charge
  have owed : launch.totalCost config tokenAmountOut.toNat =
      terms.solToCurve.toNat + terms.fee.toNat := by
    rw [fee, charge]
    rfl
  rcases bind_eq_error.mp rejected with failed | ⟨paid, payment, rejected⟩
  · obtain ⟨short, rfl⟩ := systemTransfer_error failed
    exact .lamports (by omega)
  obtain ⟨_, splits⟩ := valid.splitThreeWay_total terms.fee
  obtain ⟨shares, split, rejected⟩ := of_bind_eq_error rejected ⟨_, mapError_eq_ok.mpr splits⟩
  have sharesTotal := (splitThreeWay_eq_ok.mp (mapError_eq_ok.mp split)).2.2
  rcases bind_eq_error.mp rejected with failed | ⟨shared, sharing, rejected⟩
  · obtain ⟨short, rfl⟩ := payShares_error failed
    have left := (systemTransfer_ok payment).lamports accounts.trader
    rw [if_pos rfl, met.vaultAddress, if_neg (Pubkey.ne_of_canSign met.signer rfl)] at left
    rw [accounts.owed_feePayments, sharesTotal] at short
    exact .lamports (by omega)
  have same : shared.tokenAccounts = world.tokenAccounts := by
    rw [(payShares_ok sharing).frame, (systemTransfer_ok payment).frame]
  rcases bind_eq_error.mp rejected with failed | ⟨_, _, rejected⟩
  · rw [met.launchAddress] at failed
    obtain ⟨short, rfl⟩ := tokenTransfer_short failed (same ▸ met.curveTokenAccount)
      (same ▸ met.traderTokenAccount)
    exact .tokens (same ▸ short)
  rcases bind_eq_error.mp rejected with failed | ⟨_, _, rejected⟩
  · obtain ⟨_, failure, rfl⟩ := mapError_eq_error.mp failed
    have books := reachable.trading met.launchPresent trades
    have small := reachable.x_le met.launchPresent
    have bound := books.solToCurve_le available
    have reserve : launch.realSolReserves.toNat ≤ launch.x := Nat.le_add_left _ _
    obtain ⟨above, rfl⟩ := TokenLaunch.applyBuy_error books available (by omega) failure
    exact .cap (charge ▸ above)
  · cases rejected

end World

/-! ### Refused sales -/

/-- The quote of a sale fails for stated reasons only. -/
theorem SellTerms.quote_error {tokenAmountIn minSolOut : UInt64} {error : MemecoinError}
    (valid : config.Valid) (small : launch.x < 2 ^ 64) (product : launch.k < 2 ^ 128)
    (rejected : quote config launch tokenAmountIn minSolOut = .error error) :
    Sell.Refusal accounts world config launch tokenAmountIn minSolOut (.memecoin error) := by
  rcases tradeGuards_error rejected with
    ⟨paused, rfl⟩ | ⟨graduated, rfl⟩ | ⟨zero, rfl⟩ | ⟨_, positive, rejected⟩
  · exact .paused paused
  · exact .graduated graduated
  · exact .zero zero
  have part : config.tradeFeeBps.toNat ≤ 10_000 := valid.tradeFee.trans (by decide)
  obtain ⟨gross, quoted, rejected⟩ :=
    of_bind_eq_error rejected (solOutForTokensIn_total positive small product)
  have payout : gross.toNat = launch.grossSolOut tokenAmountIn.toNat :=
    (solOutForTokensIn_eq_ok.mp quoted).2.2.2
  rcases bind_eq_error.mp rejected with failed | ⟨_, _, rejected⟩
  · -- the quote is capped by the reserve it is checked against
    refine absurd ?_ (require_eq_error.mp failed).1
    rw [UInt64.le_iff_toNat_le, payout]
    exact Nat.min_le_right _ _
  obtain ⟨fee, charged, rejected⟩ := of_bind_eq_error rejected (feeOf_total gross part)
  have feeValue := feeOf_eq_ok.mp charged
  have feeBound : fee.toNat ≤ gross.toNat := feeValue ▸ bps_le gross part
  obtain ⟨net, difference, rejected⟩ :=
    of_bind_eq_error rejected (okOr_checkedSub_total feeBound _)
  have netValue := checkedSub_eq_some.mp (okOr_eq_ok.mp difference)
  rcases bind_eq_error.mp rejected with failed | ⟨_, _, rejected⟩
  · obtain ⟨below, rfl⟩ := require_eq_error.mp failed
    rw [ge_iff_le, UInt64.le_iff_toNat_le, Nat.eq_sub_of_add_eq netValue, feeValue, payout] at below
    exact .slippage (Nat.lt_of_not_le below)
  obtain ⟨_, _, rejected⟩ := of_bind_eq_error rejected (valid.splitThreeWay_total fee)
  cases rejected

namespace World

/-- A sale that meets its account constraints is refused for stated reasons only. -/
theorem Reachable.sell_error (reachable : world.Reachable) {tokenAmountIn minSolOut : UInt64}
    {error : ProgramError}
    (refused : Sell.handler accounts world tokenAmountIn minSolOut = .error error) :
    accounts.validate world = .error error ∨ ∃ config launch, accounts.Met world config launch ∧
      Sell.Refusal accounts world config launch tokenAmountIn minSolOut error := by
  rcases bind_eq_error.mp refused with failed | ⟨⟨config, launch⟩, validated, rejected⟩
  · exact .inl failed
  have met := TradeAccounts.validate_eq_ok.mp validated
  have valid := reachable.wellFormed.config config met.configPresent
  refine .inr ⟨config, launch, met, ?_⟩
  rcases bind_eq_error.mp rejected with failed | ⟨terms, quoted, rejected⟩
  · obtain ⟨_, failure, rfl⟩ := mapError_eq_error.mp failed
    exact SellTerms.quote_error valid
      (lt_of_le_of_lt (reachable.x_le met.launchPresent) (by decide))
      (reachable.k_lt met.launchPresent) failure
  obtain ⟨_, trades, quoted, _⟩ := SellTerms.quote_eq_ok.mp (mapError_eq_ok.mp quoted)
  rcases bind_eq_error.mp rejected with failed | ⟨moved, transferred, rejected⟩
  · obtain ⟨short, rfl⟩ := tokenTransfer_short failed met.traderTokenAccount
      (met.launchAddress ▸ met.curveTokenAccount)
    exact .tokens short
  rcases bind_eq_error.mp rejected with failed | ⟨_, _, rejected⟩
  · obtain ⟨_, rfl⟩ := payShares_error failed
    exact absurd refused (reachable.sell_covered _ _ _)
  have books := reachable.trading met.launchPresent trades
  have allocation := books.allocation
  have offset := books.offset
  have sold := reachable.transferred_le met trades transferred
  have units : TokenLaunch.curveAllocationUnits.toNat = 800_000_000_000_000 := rfl
  have virtualUnits : TokenLaunch.virtualTokenUnits.toNat = 1_236_363_636_000_000 := rfl
  have covered : terms.grossSolOut.toNat ≤ launch.realSolReserves.toNat := by
    rw [(solOutForTokensIn_eq_ok.mp quoted).2.2.2]
    exact Nat.min_le_right _ _
  obtain ⟨_, applied⟩ := @TokenLaunch.applySell_total launch _ tokenAmountIn covered (by omega)
    (by omega)
  obtain ⟨_, _, rejected⟩ := of_bind_eq_error rejected ⟨_, mapError_eq_ok.mpr applied⟩
  cases rejected

/-- No constraint and no stated reason reports the error, so no buy ends in it. -/
theorem Reachable.buy_ne_error (reachable : world.Reachable) {tokenAmountOut maxSolIn : UInt64}
    {error : ProgramError} (unconstrained : ¬ error.ofConstraints)
    (unstated : ∀ config launch,
      ¬ Buy.Refusal accounts world config launch tokenAmountOut maxSolIn error) :
    Buy.handler accounts world tokenAmountOut maxSolIn ≠ .error error := by
  intro rejected
  rcases reachable.buy_error rejected with failed | ⟨config, launch, _, refusal⟩
  · exact unconstrained (accounts.validate_failsOnly world _ failed)
  · exact unstated config launch refusal

theorem Reachable.sell_ne_error (reachable : world.Reachable) {tokenAmountIn minSolOut : UInt64}
    {error : ProgramError} (unconstrained : ¬ error.ofConstraints)
    (unstated : ∀ config launch,
      ¬ Sell.Refusal accounts world config launch tokenAmountIn minSolOut error) :
    Sell.handler accounts world tokenAmountIn minSolOut ≠ .error error := by
  intro rejected
  rcases reachable.sell_error rejected with failed | ⟨config, launch, _, refusal⟩
  · exact unconstrained (accounts.validate_failsOnly world _ failed)
  · exact unstated config launch refusal

/-! ### Accepted trades -/

/-- A buy against which no reason applies is accepted. -/
theorem Reachable.buy_accepted (reachable : world.Reachable)
    (met : accounts.Met world config launch) {tokenAmountOut maxSolIn : UInt64}
    (ready : Buy.Ready accounts world config launch tokenAmountOut maxSolIn) :
    ∃ world', Buy.handler accounts world tokenAmountOut maxSolIn = .ok world' := by
  cases result : Buy.handler accounts world tokenAmountOut maxSolIn with
  | ok world' => exact ⟨world', rfl⟩
  | error error =>
    rcases reachable.buy_error result with failed | ⟨_, _, again, refusal⟩
    · cases (TradeAccounts.validate_eq_ok.mpr met).symm.trans failed
    · obtain rfl := Option.some.inj (met.configPresent.symm.trans again.configPresent)
      obtain rfl := Option.some.inj (met.launchPresent.symm.trans again.launchPresent)
      exact absurd refusal ready.not_refused

/-- A buy by a trader who is no fee recipient is accepted exactly when no reason against it
applies. -/
theorem Reachable.buy_accepted_iff (reachable : world.Reachable)
    (met : accounts.Met world config launch) (notCreator : accounts.trader ≠ accounts.creatorWallet)
    (notDino : accounts.trader ≠ accounts.dinoBuybackWallet)
    (notTreasury : accounts.trader ≠ accounts.treasuryWallet) {tokenAmountOut maxSolIn : UInt64} :
    (∃ world', Buy.handler accounts world tokenAmountOut maxSolIn = .ok world') ↔
      Buy.Ready accounts world config launch tokenAmountOut maxSolIn := by
  refine ⟨?_, reachable.buy_accepted met⟩
  rintro ⟨world', accepted⟩
  obtain ⟨bought⟩ := Buy.execution accepted
  obtain rfl := Option.some.inj (met.configPresent.symm.trans bought.met.configPresent)
  obtain rfl := Option.some.inj (met.launchPresent.symm.trans bought.met.launchPresent)
  obtain ⟨charge, _, owed⟩ := bought.terms_eq
  have paid :=
    bought.trader_lamports (accounts.receipts_outsider notCreator notDino notTreasury)
  have capped := bought.bought.capped
  rw [bought.bought.realSol, charge] at capped
  exact {
    notPaused := bought.notPaused
    trading := bought.bought.trading
    positive := bought.bought.positive
    available := bought.bought.available
    slippage := owed ▸ bought.slippage
    capped
    lamports := by omega
    tokens := bought.tokens.covered }

/-- A sale is accepted exactly when no reason against it applies. -/
theorem Reachable.sell_accepted_iff (reachable : world.Reachable)
    (met : accounts.Met world config launch) {tokenAmountIn minSolOut : UInt64} :
    (∃ world', Sell.handler accounts world tokenAmountIn minSolOut = .ok world') ↔
      Sell.Ready accounts world config launch tokenAmountIn minSolOut := by
  constructor
  · rintro ⟨world', accepted⟩
    obtain ⟨sold⟩ := Sell.execution accepted
    obtain rfl := Option.some.inj (met.configPresent.symm.trans sold.met.configPresent)
    obtain rfl := Option.some.inj (met.launchPresent.symm.trans sold.met.launchPresent)
    obtain ⟨_, _, net⟩ := sold.terms_eq
    exact {
      notPaused := sold.notPaused
      trading := sold.sold.trading
      positive := sold.sold.positive
      slippage := net ▸ sold.slippage
      tokens := sold.tokens.covered }
  · intro ready
    cases result : Sell.handler accounts world tokenAmountIn minSolOut with
    | ok world' => exact ⟨world', rfl⟩
    | error error =>
      rcases reachable.sell_error result with failed | ⟨_, _, again, refusal⟩
      · cases (TradeAccounts.validate_eq_ok.mpr met).symm.trans failed
      · obtain rfl := Option.some.inj (met.configPresent.symm.trans again.configPresent)
        obtain rfl := Option.some.inj (met.launchPresent.symm.trans again.launchPresent)
        exact absurd refusal ready.not_refused

end World

end Refused

namespace World

/-! ### Main result -/

/-- In every reachable state, trades that meet their account constraints are accepted exactly when
none of the stated reasons applies: for a buy by a trader who is no fee recipient, and for any sale.
Neither fails in arithmetic, whatever the accounts and amounts, and no sale finds the recorded
reserve short; so a holder can always exit a curve that is not paused. -/
theorem trades_accepted_iff {world : World} (reachable : world.Reachable) :
    (∀ accounts config launch, TradeAccounts.Met accounts world config launch →
      accounts.trader ≠ accounts.creatorWallet → accounts.trader ≠ accounts.dinoBuybackWallet →
      accounts.trader ≠ accounts.treasuryWallet → ∀ tokenAmountOut maxSolIn,
        ((∃ world', Buy.handler accounts world tokenAmountOut maxSolIn = .ok world') ↔
          Buy.Ready accounts world config launch tokenAmountOut maxSolIn)) ∧
    (∀ accounts config launch, TradeAccounts.Met accounts world config launch →
      ∀ tokenAmountIn minSolOut,
        ((∃ world', Sell.handler accounts world tokenAmountIn minSolOut = .ok world') ↔
          Sell.Ready accounts world config launch tokenAmountIn minSolOut)) ∧
    (∀ accounts tokenAmountOut maxSolIn,
      Buy.handler accounts world tokenAmountOut maxSolIn ≠ .error (.memecoin .mathOverflow) ∧
      Buy.handler accounts world tokenAmountOut maxSolIn ≠ .error (.memecoin .mathUnderflow)) ∧
    (∀ accounts tokenAmountIn minSolOut,
      Sell.handler accounts world tokenAmountIn minSolOut ≠ .error (.memecoin .mathOverflow) ∧
      Sell.handler accounts world tokenAmountIn minSolOut ≠ .error (.memecoin .mathUnderflow) ∧
      Sell.handler accounts world tokenAmountIn minSolOut ≠
        .error (.memecoin .insufficientReserves)) ∧
    ∀ accounts config launch, TradeAccounts.Met accounts world config launch →
      config.paused = false → launch.graduated = false → ∀ tokenAmountIn : UInt64,
      0 < tokenAmountIn.toNat →
      tokenAmountIn.toNat ≤ world.tokenAccounts.amountAt accounts.traderTokenAccount →
      ∃ world', Sell.handler accounts world tokenAmountIn 0 = .ok world' := by
  refine ⟨fun accounts config launch met notCreator notDino notTreasury tokenAmountOut maxSolIn =>
      reachable.buy_accepted_iff met notCreator notDino notTreasury,
    fun accounts config launch met tokenAmountIn minSolOut => reachable.sell_accepted_iff met,
    fun accounts tokenAmountOut maxSolIn => ⟨?_, ?_⟩,
    fun accounts tokenAmountIn minSolOut => ⟨?_, ?_, ?_⟩, ?_⟩
  · exact reachable.buy_ne_error (by decide) fun _ _ refusal => nomatch refusal
  · exact reachable.buy_ne_error (by decide) fun _ _ refusal => nomatch refusal
  · exact reachable.sell_ne_error (by decide) fun _ _ refusal => nomatch refusal
  · exact reachable.sell_ne_error (by decide) fun _ _ refusal => nomatch refusal
  · exact reachable.sell_ne_error (by decide) fun _ _ refusal => nomatch refusal
  · intro accounts config launch met notPaused trading tokenAmountIn positive held
    exact (reachable.sell_accepted_iff met).mpr
      ⟨notPaused, trading, positive, Nat.zero_le _, held⟩

/-- A buyer of two base units can exit. -/
theorem trades_accepted_sample :
    let world := Sample.after Sample.params
      [Sample.endow, .buy (Sample.trading Sample.whale) 2 10]
    ∃ world', Sell.handler (Sample.trading Sample.whale) world 2 0 = .ok world' := by
  intro world
  have validated : ((Sample.trading Sample.whale).validate world).toOption.map
      (fun read => (read.1.paused, read.2.graduated)) = some (false, false) := by decide +kernel
  cases read : (Sample.trading Sample.whale).validate world with
  | error _ =>
    rw [read] at validated
    cases validated
  | ok accounts =>
    obtain ⟨config, launch⟩ := accounts
    rw [read] at validated
    obtain ⟨notPaused, trading⟩ := Prod.mk.inj (Option.some.inj validated)
    exact (trades_accepted_iff (Sample.reachable_after _ _)).2.2.2.2 _ config launch
      (TradeAccounts.validate_eq_ok.mp read) notPaused trading 2 (by decide) (by decide +kernel)

end World

end Memecoin
