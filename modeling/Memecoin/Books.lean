/-
This file compares the counters of a launch with its tokens. The counters agree
with each other and are backed by what the launch PDA and everybody else hold,
so no counter of a sale clips or overflows. The single account made by
`create_token` is another matter: trades may name any account of the launch
PDA, and what they move elsewhere is missing there. At graduation the reserve
counter is set to zero while the unsold tokens stay where they are.
-/

import Memecoin.Acceptance
import Memecoin.Rounding

namespace Memecoin

open Checked ConstantProduct

namespace World

variable {world : World} {mint : Pubkey} {launch : TokenLaunch}

/-! ### The counters -/

/-- No addition or multiplication of a sale overflows. -/
theorem Reachable.sell_ne_mathOverflow (reachable : world.Reachable) (accounts : TradeAccounts)
    (tokenAmountIn minSolOut : UInt64) : Sell.handler accounts world tokenAmountIn minSolOut ≠
      .error (.memecoin .mathOverflow) :=
  reachable.sell_ne_error (by decide) fun _ _ refusal => nomatch refusal

/-- The counters of a launch that trades. Against the launch as it was created, the virtual SOL is
the same and so is the positive lead of the virtual over the real token reserve; real reserve and
sold tokens make up the allocation; the recorded SOL is capped; the launch PDA holds the reserve
and the others no more than was sold. No sale clips the count of sold tokens or overflows. -/
theorem books_match (reachable : world.Reachable)
    (present : world.launches (.launch mint) = some launch) (trades : launch.graduated = false) :
    (∀ first : TokenLaunch, first.Created →
      launch.virtualSolReserves = first.virtualSolReserves ∧
      launch.y - launch.realTokenReserves.toNat = first.y - first.realTokenReserves.toNat ∧
      0 < first.y - first.realTokenReserves.toNat) ∧
    launch.realTokenReserves.toNat ≤ launch.y ∧
    launch.realTokenReserves.toNat + launch.tokensSold.toNat =
      TokenLaunch.curveAllocationUnits.toNat ∧
    launch.realSolReserves.toNat ≤ TokenLaunch.maxRealSolReserves.toNat ∧
    launch.realTokenReserves.toNat ≤ world.curveTokens mint ∧
    world.otherTokens mint ≤ launch.tokensSold.toNat ∧
    ∀ accounts tokenAmountIn minSolOut, accounts.mint = mint →
      Sell.handler accounts world tokenAmountIn minSolOut ≠ .error (.memecoin .mathOverflow) ∧
      ∀ world', Sell.handler accounts world tokenAmountIn minSolOut = .ok world' →
        ∃ launch', world'.launches (.launch mint) = some launch' ∧
          launch'.tokensSold.toNat + tokenAmountIn.toNat = launch.tokensSold.toNat := by
  have books := reachable.trading present trades
  have offset := books.offset
  have units : TokenLaunch.curveAllocationUnits.toNat = 800_000_000_000_000 := rfl
  have virtualUnits : TokenLaunch.virtualTokenUnits.toNat = 1_236_363_636_000_000 := rfl
  refine ⟨?_, by omega, books.allocation, books.capped, books.backed, books.outstanding, ?_⟩
  · rintro first ⟨accounts, bumps, createdAt, rfl⟩
    have lead : TokenLaunch.virtualTokenUnits.toNat - TokenLaunch.curveAllocationUnits.toNat =
        launch.y - launch.realTokenReserves.toNat := by omega
    refine ⟨(reachable.live present).virtualSol, lead.symm, ?_⟩
    show 0 < TokenLaunch.virtualTokenUnits.toNat - TokenLaunch.curveAllocationUnits.toNat
    decide
  · rintro accounts tokenAmountIn minSolOut rfl
    refine ⟨reachable.sell_ne_mathOverflow accounts tokenAmountIn minSolOut,
      fun world' accepted => ?_⟩
    obtain ⟨sold⟩ := Sell.execution accepted
    obtain rfl : launch = sold.launch := Option.some.inj (present.symm.trans sold.met.launchPresent)
    refine ⟨sold.launch', ?_, ?_⟩
    · exact sold.launch_after
    · rw [sold.sold.tokensSold, Nat.sub_add_cancel (reachable.sold_le sold)]

/-- The counters after a buy, in the sample run. -/
theorem books_match_sample :
    let actions := [.buy (Sample.trading Sample.whale) 100_000_000_000_000 5_000_000_000]
    ∃ launch, (Sample.after Sample.params actions).launches (.launch Sample.mint) = some launch ∧
      launch.realTokenReserves.toNat + launch.tokensSold.toNat =
        TokenLaunch.curveAllocationUnits.toNat ∧
      launch.realTokenReserves.toNat ≤
        (Sample.after Sample.params actions).curveTokens Sample.mint := by
  intro actions
  have found : ((Sample.after Sample.params actions).launches (.launch Sample.mint)).map
      TokenLaunch.graduated = some false := by decide +kernel
  obtain ⟨launch, present, trades⟩ := Option.map_eq_some_iff.mp found
  obtain ⟨_, _, allocation, _, backed, _⟩ :=
    books_match (Sample.reachable_after _ _) present trades
  exact ⟨launch, present, allocation, backed⟩

/-! ### The curve token account -/

/-- How far the operations of a run have moved the curve token account off the recorded reserve:
up by purchases served elsewhere and by donations to it, down by sales into other accounts. -/
def curveAccountDrift (world : World) (mint : Pubkey) (actions : List Action) : ℤ :=
  world.tally (fun world action _ => (world.operation mint action).accountDrift) actions

theorem curveAccount_eq (unixTimestamp : Int64) (funds : ℕ → ℕ) (actions : List Action)
    (mint : Pubkey) : (((genesis unixTimestamp funds).run actions).market mint).AccountHeld
      ((genesis unixTimestamp funds).curveAccountDrift mint actions) := by
  refine (genesis_reachable unixTimestamp funds).run_ghost
    (fun world action _ => (world.operation mint action).accountDrift) (fun _ _ => True)
    (fun world drift => (world.market mint).AccountHeld drift) ?_
    ⟨fun _ => rfl, fun _ present => nomatch present⟩ actions (along_true _ _)
  intro state action state' drift reachable _ held accepted
  exact (reachable.wellFormed.refines accepted mint).accountHeld (reachable.sound mint) held

/-- A buy that finds enough tokens in the account it names does not fail for lack of tokens. -/
theorem Reachable.buy_ne_insufficientFunds (reachable : world.Reachable) (accounts : TradeAccounts)
    (tokenAmountOut maxSolIn : UInt64)
    (held : tokenAmountOut.toNat ≤ world.tokenAccounts.amountAt accounts.curveTokenAccount) :
    Buy.handler accounts world tokenAmountOut maxSolIn ≠ .error .insufficientFunds := by
  refine reachable.buy_ne_error (by decide) fun _ _ refusal => ?_
  cases refusal with
  | tokens short => exact absurd held (Nat.not_le_of_lt short)

/-- The curve token account backs the recorded reserve, and serves every buy within it, exactly
when sales into other accounts of the launch PDA have not outrun the purchases out of them and the
donations to it. -/
theorem curveAccount_backs_iff {unixTimestamp : Int64} {funds : ℕ → ℕ} {actions : List Action}
    {mint : Pubkey} {launch : TokenLaunch}
    (present : ((genesis unixTimestamp funds).run actions).launches (.launch mint) = some launch)
    (trades : launch.graduated = false) :
    (launch.realTokenReserves.toNat ≤
        ((genesis unixTimestamp funds).run actions).tokenAccounts.amountAt (.curveAccount mint) ∧
      ∀ accounts tokenAmountOut maxSolIn, accounts.mint = mint →
        accounts.curveTokenAccount = .curveAccount mint →
        tokenAmountOut.toNat ≤ launch.realTokenReserves.toNat →
        Buy.handler accounts ((genesis unixTimestamp funds).run actions) tokenAmountOut maxSolIn ≠
          .error .insufficientFunds) ↔
      0 ≤ (genesis unixTimestamp funds).curveAccountDrift mint actions := by
  have reachable := (genesis_reachable unixTimestamp funds).run actions
  have equal := (curveAccount_eq unixTimestamp funds actions mint).2 launch present trades
  have amount : (((genesis unixTimestamp funds).run actions).market mint).curveAccount =
    ((genesis unixTimestamp funds).run actions).tokenAccounts.amountAt (.curveAccount mint) := rfl
  rw [amount] at equal
  constructor
  · rintro ⟨backed, _⟩
    omega
  · intro drift
    have backed : launch.realTokenReserves.toNat ≤ ((genesis unixTimestamp funds).run
        actions).tokenAccounts.amountAt (.curveAccount mint) := by omega
    refine ⟨backed, fun accounts tokenAmountOut maxSolIn _ named small => ?_⟩
    refine reachable.buy_ne_insufficientFunds accounts tokenAmountOut maxSolIn ?_
    rw [named]
    exact small.trans backed

/-- Where all trades of a run name it, the curve token account backs the reserve. -/
theorem curveAccount_backs_sample :
    let actions := [.buy (Sample.trading Sample.whale) 100_000_000_000_000 5_000_000_000]
    ∃ launch, (Sample.after Sample.params actions).launches (.launch Sample.mint) = some launch ∧
      launch.realTokenReserves.toNat ≤
        (Sample.after Sample.params actions).tokenAccounts.amountAt (.curveAccount Sample.mint) := by
  intro actions
  have found : ((Sample.after Sample.params actions).launches (.launch Sample.mint)).map
      TokenLaunch.graduated = some false := by decide +kernel
  obtain ⟨launch, present, trades⟩ := Option.map_eq_some_iff.mp found
  exact ⟨launch, present, ((curveAccount_backs_iff present trades).mpr (by decide +kernel)).1⟩

/-- One trader buys from the curve token account and sells into another account of the launch PDA,
four times over. -/
def drain : List Action :=
  let elsewhere := { Sample.trading Sample.whale with curveTokenAccount := .external 20 }
  let round : List Action :=
    [.buy (Sample.trading Sample.whale) 170_000_000_000_000 5_000_000_000,
      .sell elsewhere 170_000_000_000_000 0]
  .openTokenAccount (.external 20) Sample.mint (.launch Sample.mint) ::
    (round ++ round ++ round ++ round)

/-- After the drain the recorded reserve is whole, but the curve token account holds 120 million
tokens: a buy of 150 million, within the cap, fails for lack of tokens. -/
theorem drain_blocks_buy : ¬ ∀ world mint launch, World.Reachable world →
    world.launches (.launch mint) = some launch → launch.graduated = false →
    launch.realTokenReserves.toNat ≤ world.tokenAccounts.amountAt (.curveAccount mint) ∧
      ∀ accounts tokenAmountOut maxSolIn, accounts.mint = mint →
        accounts.curveTokenAccount = .curveAccount mint →
        tokenAmountOut.toNat ≤ launch.realTokenReserves.toNat →
        Buy.handler accounts world tokenAmountOut maxSolIn ≠ .error .insufficientFunds := by
  intro serves
  have found : ((Sample.after Sample.params drain).launches (.launch Sample.mint)).map
      (fun launch => (launch.graduated, launch.realTokenReserves)) =
        some (false, TokenLaunch.curveAllocationUnits) := by decide +kernel
  obtain ⟨launch, present, fields⟩ := Option.map_eq_some_iff.mp found
  obtain ⟨trades, reserve⟩ := Prod.mk.inj fields
  have failure : errorOf (Buy.handler (Sample.trading Sample.trader)
      (Sample.after Sample.params drain) 150_000_000_000_000 5_000_000_000) =
        some .insufficientFunds := by decide +kernel
  refine (serves _ Sample.mint launch (Sample.reachable_after _ _) present trades).2
    (Sample.trading Sample.trader) 150_000_000_000_000 5_000_000_000 rfl rfl ?_
    (errorOf_eq_some.mp failure)
  rw [reserve]
  decide

/-! ### Graduation -/

/-- The base units donated to accounts of the launch PDA by a run. -/
def tokenDonations (world : World) (mint : Pubkey) (actions : List Action) : ℕ :=
  world.tally (fun world action _ => (world.operation mint action).tokensGiven) actions

theorem curveTokens_eq (unixTimestamp : Int64) (funds : ℕ → ℕ) (actions : List Action)
    (mint : Pubkey) : (((genesis unixTimestamp funds).run actions).market mint).ReserveHeld
      ((genesis unixTimestamp funds).tokenDonations mint actions) := by
  refine (genesis_reachable unixTimestamp funds).run_ghost
    (fun world action _ => (world.operation mint action).tokensGiven) (fun _ _ => True)
    (fun world given => (world.market mint).ReserveHeld given) ?_
    ⟨fun _ => rfl, fun _ present => nomatch present⟩ actions (along_true _ _)
  intro state action state' given reachable _ held accepted
  exact (reachable.wellFormed.refines accepted mint).reserveHeld (reachable.sound mint) held

/-- After a graduation the launch PDA's accounts hold the donations alone (and the reserve, where
the graduation authority is the launch PDA itself) exactly when no tokens were left unsold. -/
theorem graduation_strands_nothing_iff {unixTimestamp : Int64} {funds : ℕ → ℕ}
    {actions : List Action} {accounts : Graduate} {world' : World} {config : Config}
    {launch : TokenLaunch}
    (configured : ((genesis unixTimestamp funds).run actions).config = some config)
    (present : ((genesis unixTimestamp funds).run actions).launches (.launch accounts.mint) =
      some launch)
    (accepted : accounts.handler ((genesis unixTimestamp funds).run actions) = .ok world') :
    world'.curveTokens accounts.mint =
        (genesis unixTimestamp funds).tokenDonations accounts.mint actions +
          (if config.graduationAuthority = .launch accounts.mint then
            TokenLaunch.graduationReserveUnits.toNat else 0) ↔
      launch.realTokenReserves.toNat = 0 := by
  obtain ⟨graduated⟩ := Graduate.execution accepted
  obtain rfl : config = graduated.config :=
    Option.some.inj (configured.symm.trans graduated.met.configPresent)
  obtain rfl : launch = graduated.launch :=
    Option.some.inj (present.symm.trans graduated.met.launchPresent)
  have before : ((genesis unixTimestamp funds).run actions).curveTokens accounts.mint = _ :=
    (curveTokens_eq unixTimestamp funds actions accounts.mint).2 _ present graduated.trading
  have after := graduated.held accounts.mint fun owner => owner = .launch accounts.mint
  simp only [true_and, decide_eq_true_eq] at after
  rw [curveTokens, after, ← curveTokens, before]
  omega

/-- The sample parameters with a threshold that one buy reaches. -/
def lowThreshold : InitializeConfigParams :=
  { Sample.params with graduationThresholdLamports := 1_000_000_000 }

/-- A launch that has sold an eighth of its allocation and meets the threshold. -/
def readyActions : List Action :=
  [.buy (Sample.trading Sample.whale) 100_000_000_000_000 5_000_000_000]

/-- At its graduation 700 million tokens are unsold. -/
theorem graduation_strands_sample :
    ((Sample.after lowThreshold readyActions).run
          [.graduate (Sample.graduation Sample.trader)]).curveTokens Sample.mint =
        Sample.start.tokenDonations Sample.mint (Sample.opening lowThreshold ++ readyActions) +
          (if Sample.graduationAuthority = .launch Sample.mint then
            TokenLaunch.graduationReserveUnits.toNat else 0) ↔
      700_000_000_000_000 = 0 := by
  have configured : (Sample.after lowThreshold readyActions).config =
      some (lowThreshold.toConfig Sample.admin 255) := by decide +kernel
  have found : ((Sample.after lowThreshold readyActions).launches (.launch Sample.mint)).map
      (·.realTokenReserves.toNat) = some 700_000_000_000_000 := by decide +kernel
  obtain ⟨launch, present, unsold⟩ := Option.map_eq_some_iff.mp found
  have accepted : ((Sample.after lowThreshold readyActions).execute
      (.graduate (Sample.graduation Sample.trader))).isOk := by decide +kernel
  rw [← unsold]
  exact @graduation_strands_nothing_iff 0 _ (Sample.opening lowThreshold ++ readyActions)
    (Sample.graduation Sample.trader) _ _ launch configured present (execute_run accepted)

/-- A graduation strands 700 million unsold tokens with the launch PDA, where nobody can reach
them. -/
theorem graduation_strands_tokens : ¬ ∀ unixTimestamp funds actions (accounts : Graduate) world'
    config, ((genesis unixTimestamp funds).run actions).config = some config →
    accounts.handler ((genesis unixTimestamp funds).run actions) = .ok world' →
    world'.curveTokens accounts.mint =
      (genesis unixTimestamp funds).tokenDonations accounts.mint actions +
        if config.graduationAuthority = .launch accounts.mint then
          TokenLaunch.graduationReserveUnits.toNat else 0 := by
  intro strandsNothing
  let world := Sample.after lowThreshold readyActions
  let graduation : Action := .graduate (Sample.graduation Sample.trader)
  have configured : world.config = some (lowThreshold.toConfig Sample.admin 255) := by
    decide +kernel
  have accepted : (world.execute graduation).isOk := by decide +kernel
  have held : (world.run [graduation]).curveTokens Sample.mint = 700_000_000_000_000 := by
    decide +kernel
  have given : Sample.start.tokenDonations Sample.mint
      (Sample.opening lowThreshold ++ readyActions) = 0 := by decide +kernel
  have equal := strandsNothing 0 (fun _ => 100_000_000_000)
    (Sample.opening lowThreshold ++ readyActions) (Sample.graduation Sample.trader)
    (world.run [graduation]) _ configured (execute_run accepted)
  rw [show (Sample.graduation Sample.trader).mint = Sample.mint from rfl, held,
    show genesis 0 (fun _ => 100_000_000_000) = Sample.start from rfl, given] at equal
  exact absurd equal (by decide)

/-- A launch sells out only after more than 17 billion sales: below the cap on the recorded SOL,
only their rounding can bring the product low enough. -/
theorem sales_before_sellout {unixTimestamp : Int64} {funds : ℕ → ℕ} {actions : List Action}
    {mint : Pubkey} {launch : TokenLaunch}
    (present : ((genesis unixTimestamp funds).run actions).launches (.launch mint) = some launch)
    (trades : launch.graduated = false) (soldOut : launch.realTokenReserves.toNat = 0) :
    17_000_000_000 < (genesis unixTimestamp funds).tally (sellCount mint) actions := by
  have reachable := (genesis_reachable unixTimestamp funds).run actions
  have offset := (reachable.trading present trades).offset
  have units : TokenLaunch.curveAllocationUnits.toNat = 800_000_000_000_000 := rfl
  have virtualUnits : TokenLaunch.virtualTokenUnits.toNat = 1_236_363_636_000_000 := rfl
  have start : TokenLaunch.startingProduct = 30_000_000_000 * 1_236_363_636_000_000 := rfl
  have least : launch.y = 436_363_636_000_000 := by omega
  have product : launch.k ≤ 35_000_000_000 * 436_363_636_000_000 := by
    rw [TokenLaunch.k, least]
    exact Nat.mul_le_mul_right _ (reachable.x_le present)
  have bound := startingProduct_le_count present trades
  rw [virtualUnits] at bound
  omega

end World

end Memecoin
