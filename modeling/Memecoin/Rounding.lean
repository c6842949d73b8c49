/-
This file is about the rounding of the curve. A buy rounds the charge up and
never lowers the product of the reserves. A sale pays `x` minus a floor, which
rounds the payment up as well, and so lowers the product unless its division is
even or the payment is capped by the recorded SOL. The loss is less than the
token reserve after the sale, which bounds the drift of the product over whole
runs in both directions.
-/

import Memecoin.Refinement

namespace Memecoin

open Checked ConstantProduct

namespace TokenLaunch

/-! ### One trade -/

/-- The product that `create_token` sets. -/
def startingProduct : ℕ := defaultVirtualSol.toNat * virtualTokenUnits.toNat

/-- The sales that round nothing in the seller's favour: the division is even, or the curve price
is no lower than the recorded SOL, which is then all that is paid. -/
def EvenSale (launch : TokenLaunch) (tokens : ℕ) : Prop :=
  (launch.y + tokens) ∣ launch.k ∨
    launch.k ≤ launch.virtualSolReserves.toNat * (launch.y + tokens)

theorem x_sub_realSol (launch : TokenLaunch) :
    launch.x - launch.realSolReserves.toNat = launch.virtualSolReserves.toNat :=
  Nat.add_sub_cancel _ _

variable {launch launch' : TokenLaunch} {tokens cost payout : ℕ}

theorem Created.k_eq (created : launch.Created) : launch.k = startingProduct := by
  obtain ⟨accounts, bumps, createdAt, rfl⟩ := created
  exact congrArg (· * virtualTokenUnits.toNat) (Nat.add_zero _)

theorem Bought.y_eq (bought : launch.Bought tokens cost launch') :
    launch'.y = launch.y - tokens :=
  Nat.eq_sub_of_add_eq bought.virtualTokens

/-- A buy never lowers the product. -/
theorem Bought.k_le (bought : launch.Bought tokens cost launch') : launch.k ≤ launch'.k := by
  rw [k, k, bought.x_eq, bought.y_eq, bought.quoted]
  exact product_le_buy _ _ _ bought.room

theorem Bought.k_lt (bought : launch.Bought tokens cost launch') :
    launch'.k < launch.k + launch'.y := by
  rw [k, k, bought.x_eq, bought.y_eq, bought.quoted]
  exact buy_product_lt _ _ _ bought.room

/-- A sale keeps the product exactly when it rounds nothing in the seller's favour. -/
theorem Sold.k_le_iff (sold : launch.Sold tokens payout launch') :
    launch.k ≤ launch'.k ↔ launch.EvenSale tokens := by
  rw [EvenSale, k, k, sold.x_eq, sold.virtualTokens, sold.quoted, product_le_sell_iff,
    x_sub_realSol]

theorem Sold.k_lt (sold : launch.Sold tokens payout launch') :
    launch.k < launch'.k + launch'.y := by
  rw [k, k, sold.x_eq, sold.virtualTokens, sold.quoted]
  exact product_lt_sell _ _ _ _ (Nat.add_pos_right _ sold.positive)

theorem Sold.k_le_max (sold : launch.Sold tokens payout launch') :
    launch'.k ≤ max launch.k (launch.virtualSolReserves.toNat * launch'.y) := by
  rw [k, k, sold.x_eq, sold.virtualTokens, sold.quoted, ← x_sub_realSol]
  exact sell_product_le_max _ _ _ _

end TokenLaunch

namespace World

/-! ### Which trades keep the product -/

/-- If the action is an accepted trade of the launch, the product does not fall. -/
def KeepsProduct (mint : Pubkey) (world : World) (action : Action) : Prop :=
  ∀ world' launch launch', world.execute action = .ok world' →
    (world.operation mint action).isTrade = true →
    world.launches (.launch mint) = some launch →
    world'.launches (.launch mint) = some launch' → launch.k ≤ launch'.k

/-- If the action is an accepted sale to the launch, it rounds nothing in the seller's favour. -/
def SellsEvenly (mint : Pubkey) (world : World) (action : Action) : Prop :=
  ∀ launch tokens there, (world.execute action).isOk →
    world.operation mint action = .sell tokens there →
    world.launches (.launch mint) = some launch → launch.EvenSale tokens

theorem Reachable.keepsProduct_iff {world : World} (reachable : world.Reachable) (mint : Pubkey)
    (action : Action) : world.KeepsProduct mint action ↔ world.SellsEvenly mint action := by
  constructor
  · intro keeps launch tokens there accepted sale present
    have step := reachable.wellFormed.refines (execute_run accepted) mint
    have trade : (world.operation mint action).isTrade = true := by rw [sale, Operation.isTrade]
    obtain ⟨before, launch', found, after, kind⟩ := step.trade trade
    obtain rfl : launch = before := Option.some.inj (present.symm.trans found)
    have kept := keeps _ launch launch' (execute_run accepted) trade present after
    rcases kind with ⟨_, _, _, purchase, _⟩ | ⟨_, _, _, same, sold⟩
    · cases sale.symm.trans purchase
    · obtain ⟨rfl, _⟩ := Operation.sell.inj (sale.symm.trans same)
      exact sold.k_le_iff.mp kept
  · intro even world' launch launch' accepted trade present present'
    have step := reachable.wellFormed.refines accepted mint
    obtain ⟨before, after, found, found', kind⟩ := step.trade trade
    obtain rfl : launch = before := Option.some.inj (present.symm.trans found)
    obtain rfl : launch' = after := Option.some.inj (present'.symm.trans found')
    rcases kind with ⟨_, _, _, _, bought⟩ | ⟨_, _, there, sale, sold⟩
    · exact bought.k_le
    · exact sold.k_le_iff.mpr (even launch _ there (by rw [accepted]; rfl) sale present)

/-- Rounding favours the curve in exactly the trades that are not uneven, uncapped sales: at every
reachable state for the trade at hand, and in every run for all its trades. -/
theorem product_kept_iff (mint : Pubkey) :
    (∀ world, World.Reachable world → ∀ action,
      (world.KeepsProduct mint action ↔ world.SellsEvenly mint action)) ∧
    ∀ unixTimestamp funds actions,
      ((genesis unixTimestamp funds).Along (KeepsProduct mint) actions ↔
        (genesis unixTimestamp funds).Along (SellsEvenly mint) actions) :=
  ⟨fun _ reachable action => reachable.keepsProduct_iff mint action,
    fun unixTimestamp funds actions => (genesis_reachable unixTimestamp funds).along_congr
      (fun _ action reachable => reachable.keepsProduct_iff mint action) actions⟩

/-- After a buy of two base units, the sale of one pays a whole lamport and lowers the product. The
vault has been endowed, so that the runtime accepts a trade of one lamport. -/
theorem sale_lowers_product : ¬ ∀ world mint action, World.Reachable world →
    world.KeepsProduct mint action := by
  intro keeps
  let world := Sample.after Sample.params
    [Sample.endow, .buy (Sample.trading Sample.whale) 2 10]
  let sale : Action := .sell (Sample.trading Sample.whale) 1 0
  have accepted : (world.execute sale).isOk := by decide +kernel
  have before : (world.launches (.launch Sample.mint)).map TokenLaunch.k =
      some (30_000_000_001 * 1_236_363_635_999_998) := by decide +kernel
  have after : ((world.run [sale]).launches (.launch Sample.mint)).map TokenLaunch.k =
      some (30_000_000_000 * 1_236_363_635_999_999) := by decide +kernel
  obtain ⟨launch, present, product⟩ := Option.map_eq_some_iff.mp before
  obtain ⟨launch', present', product'⟩ := Option.map_eq_some_iff.mp after
  have kept := keeps world Sample.mint sale (Sample.reachable_after _ _) _ _ _
    (execute_run accepted) rfl present present'
  rw [product, product'] at kept
  exact absurd kept (by decide)

/-! ### How far the product drifts -/

/-- The token reserve right after a sale to the launch. -/
def reserveAfterSell (mint : Pubkey) (world : World) (action : Action) (world' : World) : ℕ :=
  match world.operation mint action with
  | .sell _ _ => (world'.launches (.launch mint)).elim 0 TokenLaunch.y
  | _ => 0

/-- The token reserve right after a buy from the launch. -/
def reserveAfterBuy (mint : Pubkey) (world : World) (action : Action) (world' : World) : ℕ :=
  match world.operation mint action with
  | .buy _ _ => (world'.launches (.launch mint)).elim 0 TokenLaunch.y
  | _ => 0

/-- One for a sale to the launch. -/
def sellCount (mint : Pubkey) (world : World) (action : Action) (_ : World) : ℕ :=
  match world.operation mint action with
  | .sell _ _ => 1
  | _ => 0

end World

namespace Market

/-- The token reserve of a sound market never exceeds what it started with. -/
theorem Trading.y_le {market : Market} {launch : TokenLaunch} (books : market.Trading launch) :
    launch.y ≤ TokenLaunch.virtualTokenUnits.toNat := by
  have allocation := books.allocation
  have offset := books.offset
  omega

/-- All that was sold would take the reserve back to where it started. -/
theorem Trading.y_add_tokensSold {market : Market} {launch : TokenLaunch}
    (books : market.Trading launch) :
    launch.y + launch.tokensSold.toNat = TokenLaunch.virtualTokenUnits.toNat := by
  have allocation := books.allocation
  have offset := books.offset
  omega

end Market

namespace World

/-- A bound on a launch that trades, with a quantity summed along the run: it holds of a new
launch, and every trade keeps it when its weight is added. -/
theorem trading_ghost {mint : Pubkey} (weight : World → Action → World → ℕ)
    (holds : TokenLaunch → ℕ → Prop)
    (mono : ∀ launch count more, holds launch count → holds launch (count + more))
    (created : ∀ launch count, launch.Created → holds launch count)
    (bought : ∀ world action world' launch launch' tokens cost there count,
      world.operation mint action = .buy tokens there →
      world'.launches (.launch mint) = some launch' → launch.Bought tokens cost launch' →
      holds launch count → holds launch' (count + weight world action world'))
    (sold : ∀ world action world' launch launch' tokens payout there count,
      world.operation mint action = .sell tokens there →
      world'.launches (.launch mint) = some launch' → launch.Sold tokens payout launch' →
      (world'.market mint).Live launch' → holds launch count →
      holds launch' (count + weight world action world'))
    (unixTimestamp : Int64) (funds : ℕ → ℕ) (actions : List Action) (launch : TokenLaunch)
    (present : ((genesis unixTimestamp funds).run actions).launches (.launch mint) = some launch)
    (trading : launch.graduated = false) :
    holds launch ((genesis unixTimestamp funds).tally weight actions) := by
  refine (genesis_reachable unixTimestamp funds).run_ghost weight (fun _ _ => True)
    (fun world count => ∀ launch, world.launches (.launch mint) = some launch →
      launch.graduated = false → holds launch count) ?_ (fun _ absent => nomatch absent) actions
    (along_true _ _) launch present trading
  intro world action world' count reachable _ bound accepted launch' present trades
  have step := reachable.wellFormed.refines accepted mint
  rcases step.trading_cases present trades with ⟨earlier, _⟩ | ⟨_, new⟩ |
    ⟨launch, _, _, _, buy, earlier, trade⟩ | ⟨launch, _, _, _, sale, earlier, trade⟩
  · exact mono _ _ _ (bound launch' earlier trades)
  · exact created launch' _ new
  · exact bought _ _ _ _ _ _ _ _ _ buy present trade (bound launch earlier trade.trading)
  · exact sold _ _ _ _ _ _ _ _ _ sale present trade
      (((reachable.step accepted).sound mint).live launch' present)
      (bound launch earlier trade.trading)

variable {unixTimestamp : Int64} {funds : ℕ → ℕ} {actions : List Action} {mint : Pubkey}
  {launch : TokenLaunch}

/-- Sales lower the product by less than the reserves they leave. -/
theorem startingProduct_le
    (present : ((genesis unixTimestamp funds).run actions).launches (.launch mint) = some launch)
    (trading : launch.graduated = false) : TokenLaunch.startingProduct ≤
      launch.k + (genesis unixTimestamp funds).tally (reserveAfterSell mint) actions := by
  refine trading_ghost (reserveAfterSell mint)
    (fun launch drift => TokenLaunch.startingProduct ≤ launch.k + drift)
    (fun _ _ _ bound => bound.trans (Nat.add_le_add_left (Nat.le_add_right _ _) _))
    (fun launch _ created => created.k_eq ▸ Nat.le_add_right _ _) ?_ ?_ _ _ _ _ present trading
  · intro world action world' launch launch' tokens cost there drift _ _ bought bound
    exact bound.trans (Nat.add_le_add bought.k_le (Nat.le_add_right _ _))
  · intro world action world' launch launch' tokens payout there drift sale after sold _ bound
    have weight : reserveAfterSell mint world action world' = launch'.y := by
      rw [reserveAfterSell, sale, after]
      rfl
    have fall := sold.k_lt
    omega

/-- Buys raise the product by less than the reserves they leave, and a capped sale by no more than
to where it started. -/
theorem le_startingProduct
    (present : ((genesis unixTimestamp funds).run actions).launches (.launch mint) = some launch)
    (trading : launch.graduated = false) : launch.k ≤ TokenLaunch.startingProduct +
      (genesis unixTimestamp funds).tally (reserveAfterBuy mint) actions := by
  refine trading_ghost (reserveAfterBuy mint)
    (fun launch drift => launch.k ≤ TokenLaunch.startingProduct + drift)
    (fun _ _ _ bound => bound.trans (Nat.add_le_add_left (Nat.le_add_right _ _) _))
    (fun launch _ created => created.k_eq ▸ Nat.le_add_right _ _) ?_ ?_ _ _ _ _ present trading
  · intro world action world' launch launch' tokens cost there drift buy after bought bound
    have weight : reserveAfterBuy mint world action world' = launch'.y := by
      rw [reserveAfterBuy, buy, after]
      rfl
    have rise := bought.k_lt
    omega
  · intro world action world' launch launch' tokens payout there drift _ _ sold live bound
    have still : launch'.graduated = false := by rw [sold.frame, sold.trading]
    have capped : launch.virtualSolReserves.toNat * launch'.y ≤ TokenLaunch.startingProduct := by
      rw [← sold.virtualSol, live.virtualSol]
      exact Nat.mul_le_mul_left _ (live.trading still).y_le
    have rise := sold.k_le_max
    omega

/-- A sale lowers the product by less than the largest reserve. -/
theorem startingProduct_le_count
    (present : ((genesis unixTimestamp funds).run actions).launches (.launch mint) = some launch)
    (trading : launch.graduated = false) : TokenLaunch.startingProduct ≤ launch.k +
      (genesis unixTimestamp funds).tally (sellCount mint) actions *
        TokenLaunch.virtualTokenUnits.toNat := by
  refine trading_ghost (sellCount mint) (fun launch count =>
      TokenLaunch.startingProduct ≤ launch.k + count * TokenLaunch.virtualTokenUnits.toNat)
    (fun _ _ _ bound => bound.trans (Nat.add_le_add_left
      (Nat.mul_le_mul_right _ (Nat.le_add_right _ _)) _))
    (fun launch _ created => created.k_eq ▸ Nat.le_add_right _ _) ?_ ?_ _ _ _ _ present trading
  · intro world action world' launch launch' tokens cost there count _ _ bought bound
    exact bound.trans (Nat.add_le_add bought.k_le (Nat.mul_le_mul_right _ (Nat.le_add_right _ _)))
  · intro world action world' launch launch' tokens payout there count sale _ sold live bound
    have still : launch'.graduated = false := by rw [sold.frame, sold.trading]
    have small := (live.trading still).y_le
    have fall := sold.k_lt
    rw [sellCount, sale, Nat.add_mul, Nat.one_mul]
    omega

/-- The product of a launch that trades stays within the reserves left by its sales below where
`create_token` set it, and within those left by its buys above; and selling back all that was sold
is priced at no more than the recorded SOL and one lamport for every sale ever made. -/
theorem drift_bounded
    (present : ((genesis unixTimestamp funds).run actions).launches (.launch mint) = some launch)
    (trading : launch.graduated = false) :
    (∀ world world' (accounts : CreateToken) params bumps,
      accounts.handler world params bumps = .ok world' →
        ∃ created, world'.launches (.launch accounts.mint) = some created ∧
          created.k = TokenLaunch.startingProduct) ∧
    TokenLaunch.startingProduct -
        (genesis unixTimestamp funds).tally (reserveAfterSell mint) actions ≤ launch.k ∧
      launch.k ≤ TokenLaunch.startingProduct +
        (genesis unixTimestamp funds).tally (reserveAfterBuy mint) actions ∧
      launch.x - launch.k / (launch.y + launch.tokensSold.toNat) ≤
        launch.realSolReserves.toNat +
          (genesis unixTimestamp funds).tally (sellCount mint) actions := by
  refine ⟨fun world world' accounts params bumps accepted => ?_,
    Nat.sub_le_of_le_add (startingProduct_le present trading),
    le_startingProduct present trading, ?_⟩
  · obtain ⟨created⟩ := CreateToken.execution accepted
    refine ⟨created.launch', ?_, ?_⟩
    · exact created.launch_after
    · exact TokenLaunch.Created.k_eq ⟨accounts, bumps, world.unixTimestamp, created.created⟩
  · have live := (((genesis_reachable unixTimestamp funds).run actions).sound mint).live launch present
    have bound := startingProduct_le_count present trading
    generalize (genesis unixTimestamp funds).tally (sellCount mint) actions = count at bound ⊢
    rw [(live.trading trading).y_add_tokensSold]
    -- `virtualSol - count` times the starting reserve is within the product
    have quotient : TokenLaunch.defaultVirtualSol.toNat - count ≤
        launch.k / TokenLaunch.virtualTokenUnits.toNat := by
      rw [Nat.le_div_iff_mul_le (by decide), Nat.sub_mul]
      exact Nat.sub_le_of_le_add bound
    rw [TokenLaunch.x, live.virtualSol]
    omega

/-- The bounds at the launch whose product a sale has lowered. -/
theorem drift_bounded_sample :
    let actions := [Sample.endow, .buy (Sample.trading Sample.whale) 2 10,
      .sell (Sample.trading Sample.whale) 1 0]
    ∃ launch, (Sample.after Sample.params actions).launches (.launch Sample.mint) = some launch ∧
      TokenLaunch.startingProduct - 1_236_363_635_999_999 ≤ launch.k ∧
      launch.k ≤ TokenLaunch.startingProduct + 1_236_363_635_999_998 ∧
      launch.x - launch.k / (launch.y + launch.tokensSold.toNat) ≤
        launch.realSolReserves.toNat + 1 := by
  intro actions
  have found : ((Sample.after Sample.params actions).launches (.launch Sample.mint)).map
      TokenLaunch.graduated = some false := by decide +kernel
  obtain ⟨launch, present, trading⟩ := Option.map_eq_some_iff.mp found
  have sells : Sample.start.tally (reserveAfterSell Sample.mint)
      (Sample.opening Sample.params ++ actions) = 1_236_363_635_999_999 := by decide +kernel
  have buys : Sample.start.tally (reserveAfterBuy Sample.mint)
      (Sample.opening Sample.params ++ actions) = 1_236_363_635_999_998 := by decide +kernel
  have count : Sample.start.tally (sellCount Sample.mint)
      (Sample.opening Sample.params ++ actions) = 1 := by decide +kernel
  have bounds := (drift_bounded present trading).2
  rw [← sells, ← buys, ← count]
  exact ⟨launch, present, bounds⟩

end World

end Memecoin
